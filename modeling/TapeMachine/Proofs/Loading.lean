import TapeMachine.Proofs.Documents
import TapeMachine.Proofs.Foreseen
import TapeMachine.Proofs.Heeded
import TapeMachine.Proofs.Showing
import TapeMachine.Proofs.Undecodable

-- What becomes of a settings file, whatever it holds: settings that can be used, a failure that
-- is told, or one that nobody has foreseen.
namespace TapeMachine

open Yaml (Value)

namespace SettingsError

def isSimple : SettingsError → Bool
  | unknownKeys _ => false
  | unorderedKeys _ => false
  | unshowable _ => false
  | _ => true

end SettingsError

namespace Settings

variable {entries : Entries} {cause : SettingsError}

theorem bind_eq_error_iff {ε α β : Type} {first : Except ε α} {later : α → Except ε β} {cause : ε} :
    (first >>= later) = .error cause ↔
      first = .error cause ∨ ∃ found, first = .ok found ∧ later found = .error cause := by
  cases first <;> simp [bind,Except.bind]

theorem isSimple_of_block {name : String} (failed : block name entries = .error cause) :
    cause.isSimple = true := by
  unfold block at failed
  split at failed <;> cases failed
  rfl

theorem isSimple_of_positive {name : String} {found : Value} (failed : positive name found = .error cause) :
    cause.isSimple = true := by
  unfold positive at failed
  split at failed
  · split at failed <;> cases failed
    rfl
  · cases failed
    rfl

theorem isSimple_of_readMaxSteps (failed : readMaxSteps entries = .error cause) :
    cause.isSimple = true := by
  unfold readMaxSteps at failed
  split at failed
  · cases failed
  · cases failed
  · rename_i found _ _
    cases judged : positive "interpreter.max_steps" found with
    | ok n =>
      rw [judged] at failed
      cases failed
    | error other =>
      rw [judged] at failed
      cases failed
      exact isSimple_of_positive judged

theorem isSimple_of_readCaptureSteps (failed : readCaptureSteps entries = .error cause) :
    cause.isSimple = true := by
  unfold readCaptureSteps at failed
  split at failed <;> cases failed
  rfl

theorem isSimple_of_readSize {name : String} (failed : readSize name entries = .error cause) :
    cause.isSimple = true := by
  unfold readSize at failed
  split at failed
  · cases failed
  · exact isSimple_of_positive failed

theorem isSimple_of_readTapeSize (failed : readTapeSize entries = .error cause) :
    cause.isSimple = true := by
  unfold readTapeSize at failed
  rcases bind_eq_error_iff.mp failed with missing | ⟨size,_,large⟩
  · exact isSimple_of_readSize missing
  · split at large <;> cases large
    rfl

theorem isSimple_of_readLevel (failed : readLevel entries = .error cause) : cause.isSimple = true := by
  unfold readLevel at failed
  split at failed
  · cases failed
  · split at failed <;> cases failed
    rfl

theorem checkKeys_or_simple (failed : ofEntries entries = .error cause) :
    checkKeys (unwrapped entries) = .error cause ∨ cause.isSimple = true := by
  unfold ofEntries at failed
  simp only [bind_eq_error_iff] at failed
  rcases failed with keys | ⟨_,_,interpreter | ⟨_,_,maxSteps | ⟨_,_,captureSteps | ⟨_,_,compiler |
    ⟨_,_,tapeSize | ⟨_,_,printBufferSize | ⟨_,_,logLevel | ⟨_,_,⟨⟩⟩⟩⟩⟩⟩⟩⟩⟩
  · exact .inl keys
  · exact .inr (isSimple_of_block interpreter)
  · exact .inr (isSimple_of_readMaxSteps maxSteps)
  · exact .inr (isSimple_of_readCaptureSteps captureSteps)
  · exact .inr (isSimple_of_block compiler)
  · exact .inr (isSimple_of_readTapeSize tapeSize)
  · exact .inr (isSimple_of_readSize printBufferSize)
  · exact .inr (isSimple_of_readLevel logLevel)

theorem checkKeys_ne_unshowable (reason : String) : checkKeys entries ≠ .error (.unshowable reason) := by
  unfold checkKeys
  generalize (entries.map (·.1)).filter _ = unknown
  cases unknown with
  | nil => simp
  | cons first others => by_cases ordered : others.all (·.kind = first.kind) <;> simp [ordered]

def Mixed (entries : Entries) : Prop :=
  ∃ a b, Unknown entries a ∧ Unknown entries b ∧ a.kind ≠ b.kind

theorem checkKeys_unordered_iff :
    (∃ keys, checkKeys entries = .error (.unorderedKeys keys)) ↔ Mixed entries := by
  constructor
  · rintro ⟨keys,failed⟩
    cases reported_of_checkKeys failed with
    | unordered all mixed =>
      obtain ⟨a,first,b,second,apart⟩ := mixed
      exact ⟨a,b,(all a).mp first,(all b).mp second,apart⟩
  · rintro ⟨a,b,first,second,apart⟩
    rw [← mem_unknown_iff] at first second
    unfold checkKeys
    generalize (entries.map (·.1)).filter _ = unknown at first second
    cases unknown with
    | nil => simp at first
    | cons head others =>
      have unordered : others.all (·.kind = head.kind) = false := by
        rw [Bool.eq_false_iff]
        intro ordered
        have alike (key : Value) (member : key ∈ head :: others) : key.kind = head.kind := by
          rcases List.mem_cons.mp member with rfl | later
          · rfl
          · exact of_decide_eq_true (List.all_eq_true.mp ordered key later)
        exact apart ((alike a first).trans (alike b second).symm)
      simp [unordered]

theorem ofEntries_unordered_iff :
    (∃ keys, ofEntries entries = .error (.unorderedKeys keys)) ↔ Mixed (unwrapped entries) := by
  rw [← checkKeys_unordered_iff]
  constructor
  · rintro ⟨keys,failed⟩
    rcases checkKeys_or_simple failed with found | simple
    · exact ⟨keys,found⟩
    · cases simple
  · rintro ⟨keys,found⟩
    refine ⟨keys,?_⟩
    simp only [ofEntries,found]
    rfl

def Unspeakable (entries : Entries) : Prop :=
  ∃ cause, ofEntries entries = .error cause ∧ ∃ found, cause.Shows found ∧ found.Unshowable

-- All documents that end the program without a word.
inductive Unforeseen (reader : Yaml.Reader) (bytes : List UInt8) : Prop where
  | broken {reason : String} : reader bytes = .error (.broken reason) → Unforeseen reader bytes
  | mixed {entries : Entries} : reader bytes = .ok (.map entries) →
      Mixed (unwrapped entries) → Unforeseen reader bytes
  | unspeakable {entries : Entries} : reader bytes = .ok (.map entries) →
      Unspeakable entries → Unforeseen reader bytes

theorem unforeseen_iff (cause : SettingsError) :
    (CommandLine.Failure.settings (.settings cause)).isUnforeseen = true ↔
      (∃ keys, cause = .unorderedKeys keys) ∨ ∃ reason, cause = .unshowable reason := by
  cases cause <;> simp [CommandLine.Failure.isUnforeseen]

theorem told_unforeseen_iff (failed : ofEntries entries = .error cause) :
    (CommandLine.Failure.settings (.settings cause.told)).isUnforeseen = true ↔
      Mixed (unwrapped entries) ∨ Unspeakable entries := by
  have speaks : Unspeakable entries ↔ ∃ found ∈ cause.shows, found.unshown? ≠ none := by
    simp only [Unspeakable,failed,Except.error.injEq,exists_eq_left',SettingsError.mem_shows_iff,
      Value.unshown?_ne_none_iff]
  rw [unforeseen_iff,← ofEntries_unordered_iff,failed,speaks,SettingsError.told]
  cases unshown : cause.shows.findSome? Value.unshown? with
  | none =>
    have shown : ¬∃ found ∈ cause.shows, found.unshown? ≠ none := by simpa using unshown
    have named (reason : String) : cause ≠ .unshowable reason := by
      rintro rfl
      rcases checkKeys_or_simple failed with found | simple
      · exact checkKeys_ne_unshowable reason found
      · cases simple
    simp only [Except.error.injEq,named,exists_false,shown]
  | some reason =>
    obtain ⟨found,member,because⟩ := List.exists_of_findSome?_eq_some unshown
    have speechless : ∃ found ∈ cause.shows, found.unshown? ≠ none :=
      ⟨found,member,Option.ne_none_iff_exists'.mpr ⟨reason,because⟩⟩
    simp [speechless]

theorem ofValue_unforeseen_iff (value : Value) : (∃ cause, ofValue value = .error cause ∧
      (CommandLine.Failure.settings (.settings cause)).isUnforeseen = true) ↔
    ∃ entries, value = .map entries ∧ (Mixed (unwrapped entries) ∨ Unspeakable entries) := by
  cases value with
  | map entries =>
    simp only [ofValue,Value.map.injEq,exists_eq_left']
    cases failed : ofEntries entries with
    | ok settings =>
      simp [Except.mapError,← ofEntries_unordered_iff,Unspeakable,failed]
    | error cause => simp [Except.mapError,told_unforeseen_iff failed]
  | null => simp [ofValue]
  | _ => simp [ofValue,unforeseen_iff]

section

variable {reader : Yaml.Reader} {bytes : List UInt8}

theorem unforeseen_of_failed {cause : Yaml.ReadError} (failed : reader bytes = .error cause) :
    Unforeseen reader bytes ↔ ∃ reason, cause = .broken reason := by
  constructor
  · intro unforeseen
    cases unforeseen with
    | broken found =>
      cases failed.symm.trans found
      exact ⟨_,rfl⟩
    | mixed found | unspeakable found => cases failed.symm.trans found
  · rintro ⟨reason,rfl⟩
    exact .broken failed

theorem unforeseen_of_value {value : Value} (holds : reader bytes = .ok value) :
    Unforeseen reader bytes ↔
      ∃ entries, value = .map entries ∧ (Mixed (unwrapped entries) ∨ Unspeakable entries) := by
  constructor
  · intro unforeseen
    cases unforeseen with
    | broken found => cases holds.symm.trans found
    | mixed found mixed =>
      cases holds.symm.trans found
      exact ⟨_,rfl,.inl mixed⟩
    | unspeakable found unspeakable =>
      cases holds.symm.trans found
      exact ⟨_,rfl,.inr unspeakable⟩
  · rintro ⟨entries,rfl,mixed | unspeakable⟩
    · exact .mixed holds mixed
    · exact .unspeakable holds unspeakable

theorem load_unforeseen_iff (reader : Yaml.Reader) (name : String) (path : Path)
    (bytes : List UInt8) : (∃ cause, load reader name path (.ok bytes) = .error cause ∧
      (CommandLine.Failure.settings cause).isUnforeseen = true) ↔ Unforeseen reader bytes := by
  cases holds : reader bytes with
  | error cause =>
    rw [unforeseen_of_failed holds,load,holds]
    cases cause <;> simp [CommandLine.Failure.isUnforeseen]
  | ok value =>
    rw [unforeseen_of_value holds,← ofValue_unforeseen_iff,load_of_read name path holds]
    cases ofValue value <;> simp [Except.mapError]

end

end Settings

namespace CommandLine

structure Loads (reader : Yaml.Reader) (name : String) (path : Path) (bytes : List UInt8) : Prop where
  sound : ∀ settings, Settings.load reader name path (.ok bytes) = .ok settings → settings.Sound
  unforeseen : (∃ cause, Settings.load reader name path (.ok bytes) = .error cause ∧
    (Failure.settings cause).isUnforeseen = true) ↔ Settings.Unforeseen reader bytes
  diagnosed : ∀ diagnosis, reader bytes = .error (.malformed diagnosis) →
    ∃ cause, Settings.load reader name path (.ok bytes) = .error cause ∧
      cause.message = "Invalid YAML in " ++ name ++ ": " ++ diagnosis
  invoked : ∀ (request : Request) (reading : Reading) (patience : Nat) (cause : LoadError),
    request.config = some (.value path) → reading.document = reader → reading.file path = .ok bytes →
    Settings.load reader path.text path (.ok bytes) = .error cause → ∃ report,
      request.answer reading patience = some (.report report) ∧ report.output = "" ∧
        report.exitCode = 1 ∧ report.failure = some (.settings cause) ∧
        (report.Served ↔ ¬Settings.Unforeseen reader bytes)

theorem loads (reader : Yaml.Reader) (name : String) (path : Path) (bytes : List UInt8) :
    Loads reader name path bytes where
  sound := by
    intro settings loaded
    obtain ⟨_,value,_,_,taken⟩ := Settings.read_of_load loaded
    exact Settings.sound_of_ofValue taken
  unforeseen := Settings.load_unforeseen_iff reader name path bytes
  diagnosed := by
    intro diagnosis failed
    refine ⟨.malformed name diagnosis,?_,rfl⟩
    rw [Settings.load,failed]
  invoked := by
    rintro request reading patience cause named rfl there failed
    have set : request.settings reading = .error (.settings cause) := by
      unfold Request.settings
      rw [named]
      simp only [there,failed]
      rfl
    refine ⟨_,Request.answer_of_unprepared (.settings set) patience,rfl,rfl,rfl,?_⟩
    have ends : (Failure.settings cause).isUnforeseen = true ↔
        Settings.Unforeseen reading.document bytes := by
      rw [← Settings.load_unforeseen_iff reading.document path.text path bytes,failed]
      simp
    rw [Report.served_iff,← ends]
    simp

theorem unforeseen_of_fault {room : Nat} {bytes : List UInt8} {fault : Yaml.Fault}
    (found : Value.ofBytes room bytes = .error fault) (other : fault ≠ .malformed) :
    Settings.Unforeseen (Yaml.plainReader room) bytes := by
  have failed : Yaml.plainReader room bytes = .error fault.readError := by
    rw [Yaml.plainReader,found]
    rfl
  cases fault with
  | malformed => exact absurd rfl other
  | _ => exact .broken failed

theorem unforeseen_of_undecodable {room : Nat} (deep : 0 < room) {bytes : List UInt8} {p : Nat}
    {text : List Char} (upTo : EncodedUpTo bytes p) (encoded : bytes.take p = Utf8.encode text)
    (more : p < bytes.length) (early : text.length < 8192) :
    Settings.Unforeseen (Yaml.plainReader room) bytes :=
  unforeseen_of_fault (Value.ofBytes_undecodable deep upTo encoded more early) Yaml.Fault.noConfusion

def garbled : List UInt8 := [0xfe,0x0a]
def mixedKeys : List UInt8 := Utf8.encode "1: a\nb: c\n".toList
def noSuchDay : List UInt8 := Utf8.encode "log_level: 2001-02-30\n".toList

theorem garbled_unforeseen : Settings.Unforeseen Yaml.shallowReader garbled := by
  have upTo : EncodedUpTo garbled 0 := @EncodedUpTo.of_stuck [] garbled rfl
  have nothing : garbled.take 0 = Utf8.encode [] := rfl
  exact unforeseen_of_undecodable (by decide) upTo nothing (by decide) (by decide)

theorem mixedKeys_unforeseen : Settings.Unforeseen Yaml.shallowReader mixedKeys := by
  have holds : Yaml.shallowReader mixedKeys =
      .ok (.map [(.int 1,.text "a"),(.text "b",.text "c")]) :=
    Yaml.read_of_describes (by decide +kernel)
  have apart : (Value.int 1).kind ≠ (Value.text "b").kind := by simp [Value.kind]
  have first : Settings.Unknown [(.int 1,.text "a"),(.text "b",.text "c")] (.int 1) := by
    simp [Settings.Unknown]
  have second : Settings.Unknown [(.int 1,.text "a"),(.text "b",.text "c")] (.text "b") := by
    simp [Settings.Unknown,Settings.knownKeys]
  exact .mixed holds ⟨_,_,first,second,apart⟩

theorem noSuchDay_unforeseen : Settings.Unforeseen Yaml.shallowReader noSuchDay := by
  have noDay : (match Value.ofBytes 10 noSuchDay with
    | .error fault => some fault
    | .ok _ => none) = some (.timestamp .day) := by decide +kernel
  cases found : Value.ofBytes 10 noSuchDay with
  | ok value =>
    rw [found] at noDay
    cases noDay
  | error fault =>
    rw [found] at noDay
    cases noDay
    exact unforeseen_of_fault found Yaml.Fault.noConfusion

theorem bad_files_untold : Settings.Unforeseen Yaml.shallowReader garbled ∧
    Settings.Unforeseen Yaml.shallowReader mixedKeys ∧
    Settings.Unforeseen Yaml.shallowReader noSuchDay ∧ ¬ ∀ name path bytes,
      (∃ settings, Settings.load Yaml.shallowReader name path (.ok bytes) = .ok settings) ∨
        ∃ cause, Settings.load Yaml.shallowReader name path (.ok bytes) = .error cause ∧
          (Failure.settings cause).isUnforeseen = false := by
  refine ⟨garbled_unforeseen,mixedKeys_unforeseen,noSuchDay_unforeseen,?_⟩
  intro claim
  obtain ⟨cause,failed,untold⟩ := (Settings.load_unforeseen_iff Yaml.shallowReader "turir.yaml"
    (.of "turir.yaml") garbled).mpr garbled_unforeseen
  rcases claim "turir.yaml" (.of "turir.yaml") garbled with ⟨settings,loaded⟩ | ⟨other,found,told⟩
  · cases failed.symm.trans loaded
  · cases failed.symm.trans found
    exact Bool.noConfusion (untold.symm.trans told)

end CommandLine

end TapeMachine
