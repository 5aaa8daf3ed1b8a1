import Mathlib
import TemplateLint.Proofs.ExitStatus

/-! # What a command may write

Most commands write nothing, and neither does one that fails before it starts. Applying fixes
changes the contents of the catalog and of the documents that it reports replacements for, whatever
else goes wrong on the way, and no file comes or goes. Settings are written only where there are
none, and only to their own file.
-/

namespace TemplateLint

namespace Disk

/-- A disk is another one with a text in a file where there was nothing. -/
structure Creates (disk after : Disk) (path : Path) (text : String) : Prop where
  absent : disk.has path = false
  text : after.readText path = .ok text
  others : ∃ route, disk.entry? route = none ∧ after.route? path = some route ∧
    ∀ other ≠ route, after.entry? other = disk.entry? other

/-- A write to a path that leads to no entry creates a file there. -/
theorem Creates.writeText {disk after : Disk} {path : Path} {text : String}
    (absent : disk.has path = false) (written : disk.writeText path text = .ok after) :
    disk.Creates after path text := by
  have read := readText_of_writeText written
  obtain ⟨_, _, rest⟩ := bind_eq_ok_iff.mp written
  split_ifs at rest with slash
  · cases rest
  · obtain ⟨target, found, stored⟩ := bind_eq_ok_iff.mp rest
    cases target with
    | present route entry => simp [has, found] at absent
    | vacant directory name =>
      dsimp only at stored
      split at stored
      · obtain rfl := Except.ok.inj stored
        obtain ⟨free, there⟩ := follow_put_vacant (follow_of_find found) (.file (.text text) .full)
        have below : directory ++ [name] ≠ [] := by simp
        refine ⟨absent, read, directory ++ [name], free, ?_, ?_⟩
        · obtain ⟨_, spelled, _⟩ := bind_eq_ok_iff.mp found
          simp [route?, find, spelled, there, slash, bind, Except.bind]
        · intro other elsewhere
          rw [entry?_put disk _ below, if_neg elsewhere]
      · cases stored

end Disk

namespace Session

/-- The documents that fixes report replacements for. -/
def reported (session : Session) (fixes : List Fixes) : List Path :=
  ((session.documents.zip fixes).filter fun known => !known.2.replacements.isEmpty).map Prod.fst

/-- The documents that were written back are those that the results of a run report. -/
theorem rewritten_eq_reported (session : Session) {results : List Result} {printed : List Members}
    {disk : Disk} (all : results.map Result.path = session.documents) :
    (State.finished results printed disk).rewritten =
      session.reported (results.map Result.fixes) := by
  rw [reported, ← all, List.zip_map', List.filter_map, List.map_map]
  rfl

/-- The run of all documents changes the catalog and the reported documents at most. -/
theorem applyAll_changesOnly (session : Session) (rule : Rule) (disk : Disk) :
    (session.applyAll rule disk).1.length = session.documents.length ∧
      disk.ChangesOnly (session.applyAll rule disk).2
        (session.catalog.path :: session.reported (session.applyAll rule disk).1) := by
  obtain ⟨results, printed, fixes, reaches⟩ := session.applyAll_reaches rule disk
  have frame := Reaches.frame reaches
  have all : results.map Result.path = session.documents := by
    simpa [State.taken, State.finished] using frame.documents.symm
  have changes := frame.changes
  rw [rewritten_eq_reported session all, fixes] at changes
  refine ⟨?_, changes⟩
  rw [← fixes, ← all, List.length_map, List.length_map]

end Session

namespace Command

variable (disk : Disk) (cwd : Path)

/-- A command stops where it is without a session, and goes on with one. -/
theorem within_cases (selection : Selection) (next : Session → Run) :
    (within disk cwd selection next).disk = disk ∨
      ∃ session, within disk cwd selection next = next session := by
  cases prepared : Session.prepare disk cwd selection with
  | error error => exact .inl (by rw [within_of_error prepared])
  | ok session => exact .inr ⟨session, within_of_ok prepared next⟩

theorem within_disk (selection : Selection) {next : Session → Run}
    (quiet : ∀ session, (next session).disk = disk) :
    (within disk cwd selection next).disk = disk := by
  obtain stopped | ⟨session, goes⟩ := within_cases disk cwd selection next
  · exact stopped
  · exact goes ▸ quiet session

/-- A command that fails although it ends well with every session had none. -/
theorem within_disk_of_error {selection : Selection} {next : Session → Run} {error : CommandError}
    (ends : ∀ session, ∃ status, (next session).status = .ok status)
    (failed : (within disk cwd selection next).status = .error error) :
    (within disk cwd selection next).disk = disk := by
  obtain stopped | ⟨session, goes⟩ := within_cases disk cwd selection next
  · exact stopped
  · obtain ⟨status, ended⟩ := ends session
    rw [goes, ended] at failed
    cases failed

theorem runCheck_disk (session : Session) : (runCheck disk session).disk = disk := by
  rw [runCheck]
  split <;> rfl

theorem runFix_plan_disk (session : Session) : (runFix disk session false).disk = disk := by
  rw [runFix]
  split <;> rfl

theorem runFix_disabled_disk {session : Session} (disabled : session.rule = none) (apply : Bool) :
    (runFix disk session apply).disk = disk := by
  rw [runFix, disabled]

theorem runInit_of_has (present : disk.has (cwd.child Settings.fileName) = true) :
    (runInit disk cwd).disk = disk := by
  rw [runInit, if_pos present]

/-- Where there are no settings they are created, unless that fails. -/
theorem runInit_of_not_has (absent : disk.has (cwd.child Settings.fileName) = false) :
    (∃ error, (runInit disk cwd).status = .error error) ∧ (runInit disk cwd).disk = disk ∨
      (runInit disk cwd).status = .ok .success ∧
        disk.Creates (runInit disk cwd).disk (cwd.child Settings.fileName)
          (Settings.defaultText ++ "\n") := by
  have free : ¬ disk.has (cwd.child Settings.fileName) = true := by simp [absent]
  rw [runInit, if_neg free]
  cases written : disk.writeText (cwd.child Settings.fileName) (Settings.defaultText ++ "\n") with
  | error cause => exact .inl ⟨⟨_, rfl⟩, rfl⟩
  | ok after => exact .inr ⟨rfl, .writeText absent written⟩

theorem runFix_ends (session : Session) (apply : Bool) :
    ∃ status, (runFix disk session apply).status = .ok status := by
  rw [runFix]
  split <;> exact ⟨_, rfl⟩

/-- A command that fails writes nothing. -/
theorem disk_of_error {command : Option Command} {error : CommandError}
    (failed : (runOrHelp disk cwd command).status = .error error) :
    (runOrHelp disk cwd command).disk = disk := by
  cases command with
  | none => rfl
  | some command =>
    cases command with
    | check selection =>
      exact within_disk_of_error disk cwd (fun session => ⟨_, runCheck_status disk session⟩) failed
    | fix selection apply =>
      exact within_disk_of_error disk cwd (fun session => runFix_ends disk session apply) failed
    | init =>
      cases present : disk.has (cwd.child Settings.fileName) with
      | true => exact runInit_of_has disk cwd present
      | false =>
        obtain ⟨-, same⟩ | ⟨success, -⟩ := runInit_of_not_has disk cwd present
        · exact same
        · have ended : (runInit disk cwd).status = .error error := failed
          rw [success] at ended
          cases ended

/-- What a command may write. One that fails, a check, fixes that are only shown and fixes while the
rule is switched off leave every file as it is. Applied fixes make and remove no file, and change the
catalog and the documents that they report replacements for at most; so does every state of every
run, with whatever writes failing. Settings are created where there are none, and nothing else is. -/
theorem commands_change_only (disk : Disk) (cwd : Path) :
    (∀ command error, (runOrHelp disk cwd command).status = .error error →
      (runOrHelp disk cwd command).disk = disk) ∧
    (runOrHelp disk cwd none).disk = disk ∧
    (∀ selection, (run disk cwd (.check selection)).disk = disk ∧
      (run disk cwd (.fix selection false)).disk = disk) ∧
    (∀ selection session, Session.prepare disk cwd selection = .ok session →
      (session.rule = none → (run disk cwd (.fix selection true)).disk = disk) ∧
      ∀ rule, session.rule = some rule →
        (run disk cwd (.fix selection true)).output =
          fixReport session true (session.applyAll rule disk).1 ∧
        (session.applyAll rule disk).1.length = session.documents.length ∧
        disk.ChangesOnly (run disk cwd (.fix selection true)).disk
          (session.catalog.path :: session.reported (session.applyAll rule disk).1) ∧
        ∀ state, session.Reaches rule disk state →
          disk.ChangesOnly state.disk (session.catalog.path :: state.rewritten)) ∧
    (disk.has (cwd.child Settings.fileName) = true → (run disk cwd .init).disk = disk) ∧
    (disk.has (cwd.child Settings.fileName) = false →
      (∃ error, (run disk cwd .init).status = .error error) ∧ (run disk cwd .init).disk = disk ∨
        (run disk cwd .init).status = .ok .success ∧
          disk.Creates (run disk cwd .init).disk (cwd.child Settings.fileName)
            (Settings.defaultText ++ "\n")) := by
  refine ⟨fun command error => disk_of_error disk cwd, rfl, fun selection => ⟨?_, ?_⟩, ?_,
    runInit_of_has disk cwd, runInit_of_not_has disk cwd⟩
  · exact within_disk disk cwd selection (runCheck_disk disk)
  · exact within_disk disk cwd selection (runFix_plan_disk disk)
  · intro selection session prepared
    have applied : run disk cwd (.fix selection true) = runFix disk session true :=
      within_of_ok prepared _
    rw [applied]
    refine ⟨fun disabled => runFix_disabled_disk disk disabled true, fun rule enabled => ?_⟩
    obtain ⟨all, changes⟩ := session.applyAll_changesOnly rule disk
    refine ⟨by simp [runFix, enabled], all, ?_, fun state reaches => ?_⟩
    · rwa [(runFix_apply_eq disk enabled).2]
    · exact (Session.Reaches.frame reaches).changes

open Session (Sample.refusingDisk Sample.prepared) in
/-- Fixes are applied where the catalog refuses a text and a document cannot be read, and settings
are written where there are none. -/
theorem sample_commands_change_only :
    Session.prepare Sample.refusingDisk ⟨"/"⟩ {} = .ok Sample.prepared ∧
    Sample.prepared.rule = some Rule.default ∧
    Sample.refusingDisk.ChangesOnly (run Sample.refusingDisk ⟨"/"⟩ (.fix {} true)).disk
      (Sample.prepared.catalog.path ::
        Sample.prepared.reported (Sample.prepared.applyAll Rule.default Sample.refusingDisk).1) ∧
    Sample.refusingDisk.has ⟨"/.barestringsrc.json"⟩ = false ∧
    Sample.refusingDisk.Creates (run Sample.refusingDisk ⟨"/"⟩ .init).disk ⟨"/.barestringsrc.json"⟩
      (Settings.defaultText ++ "\n") := by
  obtain ⟨-, -, -, fixes, -, settings⟩ := commands_change_only Sample.refusingDisk ⟨"/"⟩
  have prepared := Session.Sample.prepare_refusingDisk
  have absent : Sample.refusingDisk.has ⟨"/.barestringsrc.json"⟩ = false := by decide +kernel
  have ended : (run Sample.refusingDisk ⟨"/"⟩ .init).status.toBool = true := by decide +kernel
  refine ⟨prepared, rfl, ((fixes _ _ prepared).2 _ rfl).2.2.1, absent, ?_⟩
  obtain ⟨⟨error, failed⟩, -⟩ | ⟨-, creates⟩ := settings absent
  · rw [failed] at ended
    cases ended
  · exact creates

end Command

end TemplateLint
