import TapeMachine.Proofs.Files
import TapeMachine.Proofs.Preparation

-- Compiling to a file. The file is written once all that may fail is over, and then it holds
-- what would have been printed; otherwise everything is as it was.
namespace TapeMachine

namespace CommandLine

-- Compiling succeeds or fails before it matters where the text goes.
inductive Compiles (answer : Option (Given Path) → Answer) : Prop where
  | fails {report : Report} : report.Mute → (∀ output, answer output = .report report) →
      Compiles answer
  | succeeds {printed unnamed : Report} {written : Path → Report}
      {unwritten : Path → FileError → Report} :
      answer none = .report printed → printed.failure = none →
      answer (some .nothing) = .report unnamed → unnamed.Mute →
      (∀ path, answer (some (.value path)) =
        .write path printed.output (written path) (unwritten path)) →
      (∀ path, (written path).failure = none ∧ (written path).output = "") →
      (∀ path cause, (unwritten path cause).Mute) → Compiles answer

theorem compiles (settings : Settings) (severity : Nat) (log : List Log.Record)
    (program : Program) :
    Compiles fun output => compileAnswer settings severity output log program := by
  unfold compileAnswer
  cases sizesOf settings with
  | error cause => exact .fails ⟨rfl,rfl⟩ fun _ => rfl
  | ok sizes =>
    simp only
    cases sizes.compile program with
    | error cause =>
      cases cause with
      | refused refusal => exact .fails ⟨rfl,rfl⟩ fun _ => rfl
      | emission cause => exact .fails ⟨rfl,rfl⟩ fun _ => rfl
    | ok listing =>
      exact .succeeds rfl rfl rfl ⟨rfl,rfl⟩ (fun _ => rfl) (fun _ => ⟨rfl,rfl⟩) fun _ _ => ⟨rfl,rfl⟩

structure AllOrNothing (system : FileSystem σ) (state : σ) (output : Given Path)
    (printed saved : Report) (after : σ) : Prop where
  succeeds : saved.exitCode = 0 ↔
    printed.exitCode = 0 ∧ ∃ path, output = .value path ∧ system.Opens state path
  all : saved.exitCode = 0 → saved.output = "" ∧ ∃ path, output = .value path ∧
    system.read after path = .ok (printed.output.toList.flatMap String.utf8EncodeChar)
  nothing : saved.exitCode ≠ 0 → saved.exitCode = 1 ∧ saved.output = "" ∧ after = state
  silent : printed.exitCode ≠ 0 → printed.exitCode = 1 ∧ printed.output = ""

theorem Report.Mute.exitCode {report : Report} (mute : report.Mute) : report.exitCode = 1 := by
  rw [Report.exitCode,mute.failed]
  rfl

theorem Report.exitCode_done {report : Report} (done : report.failure = none) :
    report.exitCode = 0 := by
  rw [Report.exitCode,done]
  rfl

namespace AllOrNothing

variable {system : FileSystem σ} {state after : σ} {output : Given Path} {path : Path}
  {printed saved : Report}

theorem of_failed (unprinted : printed.Mute) (unsaved : saved.Mute) :
    AllOrNothing system state output printed saved state where
  succeeds := by simp [unprinted.exitCode,unsaved.exitCode]
  all := by simp [unsaved.exitCode]
  nothing := fun _ => ⟨unsaved.exitCode,unsaved.silent,rfl⟩
  silent := fun _ => ⟨unprinted.exitCode,unprinted.silent⟩

theorem of_unsaved (done : printed.failure = none) (unsaved : saved.Mute)
    (shut : ∀ path, output = .value path → ¬system.Opens state path) :
    AllOrNothing system state output printed saved state where
  succeeds := by simpa [Report.exitCode_done done,unsaved.exitCode] using shut
  all := by simp [unsaved.exitCode]
  nothing := fun _ => ⟨unsaved.exitCode,unsaved.silent,rfl⟩
  silent := by simp [Report.exitCode_done done]

theorem of_saved (done : printed.failure = none) (kept : saved.failure = none)
    (silent : saved.output = "") (opens : system.Opens state path)
    (holds : system.read after path = .ok (Utf8.encode printed.output.toList)) :
    AllOrNothing system state (.value path) printed saved after where
  succeeds := by simpa [Report.exitCode_done done,Report.exitCode_done kept] using opens
  all := fun _ => ⟨silent,path,rfl,holds⟩
  nothing := by simp [Report.exitCode_done kept]
  silent := by simp [Report.exitCode_done done]

end AllOrNothing

section

variable {config : Option (Given Path)} {level : Option (Given Log.Level)} {source : Path}
  {output : Given Path}

theorem unprepared_compile {reading : Reading} {report : Report}
    (unprepared : Request.Unprepared ⟨config,level,source,.compile none⟩ reading report) :
    Request.Unprepared ⟨config,level,source,.compile (some output)⟩ reading report := by
  cases unprepared with
  | settings failed => exact .settings failed
  | level set failed => exact .level set failed
  | program set levelled failed => exact .program set levelled failed

theorem compiled_all_or_nothing {world : World σ} {state : σ} {printing saving : List String}
    (prints : Request.read printing = .ok ⟨config,level,source,.compile none⟩)
    (saves : Request.read saving = .ok ⟨config,level,source,.compile (some output)⟩)
    (takes : ∀ path, output = .value path → world.toFileSystem.Takes state path)
    (patience : Nat) : ∃ printed saved after,
      invoke world printing patience state = some (.ok printed,state) ∧
      invoke world saving patience state = some (.ok saved,after) ∧
      AllOrNothing world.toFileSystem state output printed saved after := by
  simp only [invoke,prints,saves]
  rcases Request.prepared_or ⟨config,level,source,.compile none⟩ (world.reading state) with
    ⟨report,unprepared⟩ | ⟨settings,severity,program,prepared⟩
  · rw [Request.answer_of_unprepared unprepared,
      Request.answer_of_unprepared (unprepared_compile unprepared)]
    exact ⟨report,report,state,rfl,rfl,.of_failed unprepared.mute unprepared.mute⟩
  · have same : Request.Prepared ⟨config,level,source,.compile (some output)⟩ (world.reading state)
        settings severity program := ⟨prepared.set,prepared.levelled,prepared.parsed⟩
    rw [Request.answer_of_prepared prepared,Request.answer_of_prepared same]
    cases compiles settings severity (readProgram source (world.reading state)).1 program with
    | fails mute fails =>
      simp only [fails]
      exact ⟨_,_,state,rfl,rfl,.of_failed mute mute⟩
    | @succeeds printed unnamed written unwritten shows done names mute writes kept unkept =>
      simp only [shows]
      cases output with
      | nothing =>
        simp only [names]
        exact ⟨_,_,state,rfl,rfl,.of_unsaved done mute (by simp)⟩
      | value path =>
        simp only [writes,Answer.perform,Option.map_some]
        rcases (takes path rfl).written_or (Utf8.encode printed.output.toList) with
          ⟨after,opens,wrote,holds⟩ | ⟨cause,shut,failed⟩
        · obtain ⟨finished,silent⟩ := kept path
          rw [wrote]
          exact ⟨printed,written path,after,rfl,rfl,.of_saved done finished silent opens holds⟩
        · rw [failed]
          refine ⟨printed,unwritten path cause,state,rfl,rfl,.of_unsaved done (unkept path cause) ?_⟩
          rintro _ ⟨⟩
          exact shut

end

def oneRunDisk : Disk :=
  ⟨[["/","tmp"]],[(["a.tur"],Utf8.encode "#halt B\nA 0 1 -> B\n#run [ 0 ] A\n".toList)]⟩

def toOutput : List String := ["compile","a.tur"]
def toFile : List String := ["compile","a.tur","-o","/tmp/a.asm"]

theorem toOutput_read : Request.read toOutput =
    .ok ⟨none,none,Path.of "a.tur",.compile none⟩ :=
  Request.read_of_found (by decide +kernel)

theorem toFile_read : Request.read toFile =
    .ok ⟨none,none,Path.of "a.tur",.compile (some (.value (Path.of "/tmp/a.asm")))⟩ :=
  Request.read_of_found (by decide +kernel)

theorem toFile_takes (path : Path) (given : Given.value (Path.of "/tmp/a.asm") = .value path) :
    Disk.system.Takes oneRunDisk path := by
  cases given
  apply Disk.takes
  have named : (oneRunDisk.find (Path.of "/tmp/a.asm")).toOption.bind Spot.name? =
      some ["/","tmp","a.asm"] := by decide +kernel
  intro sinks
  rw [sinks] at named
  cases named

theorem oneRun_all_or_nothing : Request.read toOutput =
      .ok ⟨none,none,Path.of "a.tur",.compile none⟩ ∧
    Request.read toFile =
      .ok ⟨none,none,Path.of "a.tur",.compile (some (.value (Path.of "/tmp/a.asm")))⟩ ∧
    (∀ path, Given.value (Path.of "/tmp/a.asm") = .value path →
      Disk.system.Takes oneRunDisk path) ∧
    ∃ printed saved after,
      invoke shallowWorld toOutput 0 oneRunDisk = some (.ok printed,oneRunDisk) ∧
      invoke shallowWorld toFile 0 oneRunDisk = some (.ok saved,after) ∧
      AllOrNothing Disk.system oneRunDisk (.value (Path.of "/tmp/a.asm")) printed saved after :=
  ⟨toOutput_read,toFile_read,toFile_takes,
    compiled_all_or_nothing toOutput_read toFile_read toFile_takes 0⟩

end CommandLine

end TapeMachine
