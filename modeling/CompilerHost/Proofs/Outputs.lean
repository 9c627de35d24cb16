import CompilerHost.Host
import CompilerHost.Proofs.Conservation
import CompilerHost.Proofs.Deposits
import CompilerHost.Proofs.Result

/-! # Outputs

A configured run hands its artifact to a file and then to a mirror, each under a path of its own.

* `Sink.mirrors_of_hasFile`: what a mirror holds is read back;
* `Config.hasFile_of_delivered`: what the two leave, one after the other;
* `Pipeline.run_outputs_iff`: behind a run that delivered to both, both outputs are the artifact
  exactly if their paths lead to different places, for otherwise the mirror is written over the
  file.
-/

namespace CompilerHost

/-! ## Escaped artifacts -/

namespace Sink

/-- An artifact is shorter than its escaped text, unless it is empty. -/
theorem escaped_ne {bytes : ByteArray} (h : 0 < bytes.size) : escaped bytes ≠ bytes := by
  intro heq
  have hlength := (Escape.spells_flatMap bytes.toList).length
  rw [← Escape.toList_toUTF8_encode] at hlength
  change (escaped bytes).toList.length = _ at hlength
  rw [heq, length_toList_byteArray] at hlength
  omega

/-- A file that is read back as an artifact, by its text and by a mirror. -/
structure Mirrors (fs : FileSystem) (path : String) (bytes : ByteArray) : Prop where
  text : ∃ text, fs.readText path = .ok text ∧ unescape text = .ok bytes
  restored : restore fs path = .ok bytes

/-- What a mirror holds is read back. -/
theorem mirrors_of_hasFile {fs : FileSystem} {path : String} {bytes : ByteArray}
    (h : fs.HasFile path (escaped bytes)) : Mirrors fs path bytes where
  text := by
    have htext := readText_of_hasFile "" (hasFile_empty_behind h)
    rw [String.append_empty] at htext
    exact ⟨_, htext, unescape_escapedText bytes⟩
  restored := restore_of_blanks (hasFile_empty_behind h) rfl

end Sink

/-- Where sinks accept one after the other, each finds the world that the one before it left. -/
theorem Pipeline.accepted_of_deliver {ω : Type} {name : String} {bytes : ByteArray} {sink : Sink ω}
    {rest : List (Sink ω)} {world : ω} {kinds : List String}
    (h : (deliver name bytes (sink :: rest) world).result = .ok kinds) :
    (sink.deliver name bytes world).result = .ok () ∧
      (∃ others,
        (deliver name bytes rest (sink.deliver name bytes world).state).result = .ok others) ∧
      (deliver name bytes (sink :: rest) world).state =
        (deliver name bytes rest (sink.deliver name bytes world).state).state := by
  cases hanswer : (sink.deliver name bytes world).result with
  | error cause =>
      rw [deliver_of_refused rest hanswer] at h
      cases h
  | ok _ =>
      rw [deliver_of_accepted hanswer, Ended.behind_result, Action.map_apply] at h
      rw [deliver_of_accepted hanswer, Ended.behind_state, Action.map_apply]
      refine ⟨rfl, ?_, rfl⟩
      cases hrest : (deliver name bytes rest (sink.deliver name bytes world).state).result with
      | error fault =>
          rw [hrest] at h
          cases h
      | ok others => exact ⟨others, rfl⟩

/-! ## Configured outputs -/

namespace Config

/-- Both outputs are what was delivered: the file as it is, and the mirror as it is read back. -/
structure HoldsOutputs (c : Config) (mirror : String) (fs : FileSystem) (bytes : ByteArray) :
    Prop where
  file : fs.read (Sink.fileTarget c.directory c.filename) = .ok bytes
  mirror : Sink.Mirrors fs mirror bytes

/-- The file and the mirror lead to different places. -/
def OutputsApart (c : Config) (mirror : String) (fs : FileSystem) : Prop :=
  fs.placeOf (Sink.fileTarget c.directory c.filename) ≠ fs.placeOf mirror

instance (c : Config) (mirror : String) (fs : FileSystem) : Decidable (c.OutputsApart mirror fs) :=
  inferInstanceAs (Decidable (_ ≠ _))

variable {c : Config} {mirror : String} {fs : FileSystem} {bytes : ByteArray}

/-- What the sinks of a configuration leave when both accept: the mirror, and the file unless the
mirror was written over it. -/
theorem hasFile_of_delivered {name : String} {kinds : List String}
    (hmirror : c.mirror = some mirror)
    (h : (Pipeline.deliver name bytes c.sinks fs).result = .ok kinds) :
    (Pipeline.deliver name bytes c.sinks fs).state.HasFile mirror (Sink.escaped bytes) ∧
      (Pipeline.deliver name bytes c.sinks fs).state.HasFile (Sink.fileTarget c.directory name)
        (if fs.placeOf (Sink.fileTarget c.directory name) = fs.placeOf mirror
          then Sink.escaped bytes else bytes) := by
  have hsinks : c.sinks = [Sink.file c.directory, Sink.mirror mirror] := by
    rw [sinks, hmirror]
    rfl
  rw [hsinks] at h ⊢
  obtain ⟨hfile, ⟨_, hrest⟩, hstate⟩ := Pipeline.accepted_of_deliver h
  obtain ⟨hescaped, _, hlast⟩ := Pipeline.accepted_of_deliver hrest
  rw [hstate, hlast]
  exact Deposit.hasFile_of_both ⟨.file c.directory, name, bytes⟩ ⟨.mirror mirror, name, bytes⟩
    hfile hescaped

/-- Behind a delivery the mirror is read back as the artifact, and the file is the artifact exactly
if the mirror leads elsewhere. -/
theorem outputs_of_delivered {kinds : List String} (hmirror : c.mirror = some mirror)
    (hbytes : 0 < bytes.size)
    (h : (Pipeline.deliver c.filename bytes c.sinks fs).result = .ok kinds) :
    Sink.Mirrors (Pipeline.deliver c.filename bytes c.sinks fs).state mirror bytes ∧
      ((Pipeline.deliver c.filename bytes c.sinks fs).state.read
          (Sink.fileTarget c.directory c.filename) = .ok bytes ↔ c.OutputsApart mirror fs) := by
  obtain ⟨hescaped, hfile⟩ := hasFile_of_delivered hmirror h
  refine ⟨Sink.mirrors_of_hasFile hescaped, ?_⟩
  have hread := FileSystem.hasFile_iff.1 hfile
  rw [hread, OutputsApart]
  split
  · -- the file has the escaped text, which is longer
    rename_i hsame
    constructor
    · intro heq
      exact absurd (Except.ok.inj heq) (Sink.escaped_ne hbytes)
    · intro hapart
      exact absurd hsame hapart
  · rename_i hapart
    exact ⟨fun _ => hapart, fun _ => rfl⟩

end Config

namespace Pipeline

variable {σ : Type} {p : Pipeline σ} {c : Config} {request : Request} {log : Log}

/-- What a run delivers is never empty. -/
theorem size_pos_of_decoded {bytes : ByteArray} (h : p.decoded request log = .ok (.payload bytes)) :
    0 < bytes.size := by
  obtain ⟨_, _, _, _, _, houtcome⟩ := last_of_decoded h
  exact (Memory.holdsOutput_of_outcomeAt houtcome).positive

/-- A run that reports deliveries had an artifact, and its sinks took it. -/
theorem delivered_of_report {ω : Type} {sinks : List (Sink ω)} {world : ω} {report : RunReport}
    (h : (p.run request log sinks world).result = .ok report) (hdelivered : report.delivered ≠ []) :
    ∃ bytes, p.decoded request log = .ok (.payload bytes) ∧ report.outcome = .payload bytes ∧
      (deliver p.artifactName bytes sinks world).result = .ok report.delivered ∧
      (p.run request log sinks world).state = (deliver p.artifactName bytes sinks world).state := by
  cases reported h with
  | empty _ _ _ hnone => exact absurd hnone hdelivered
  | delivered bytes hdecoded houtcome hnone hkinds hstate =>
      refine ⟨bytes, hdecoded, houtcome, ?_, hstate⟩
      rw [result_deliver, hnone, hkinds]

/-- Behind a run that delivered to both outputs of its configuration, the mirror is read back as the
artifact. The file is the artifact as well exactly if the two paths lead to different places. -/
theorem run_outputs_iff {mirror : String} {fs : FileSystem} {report : RunReport}
    (hname : p.artifactName = c.filename) (hmirror : c.mirror = some mirror)
    (hrun : (p.run request log c.sinks fs).result = .ok report)
    (hdelivered : report.delivered = ["file", "mirror"]) :
    ∃ bytes, report.outcome = .payload bytes ∧
      Sink.Mirrors (p.run request log c.sinks fs).state mirror bytes ∧
      (c.HoldsOutputs mirror (p.run request log c.sinks fs).state bytes ↔
        c.OutputsApart mirror fs) := by
  obtain ⟨bytes, hdecoded, houtcome, hkinds, hstate⟩ :=
    delivered_of_report hrun (by simp [hdelivered])
  rw [hname] at hkinds hstate
  obtain ⟨hmirrors, hread⟩ :=
    Config.outputs_of_delivered hmirror (size_pos_of_decoded hdecoded) hkinds
  rw [hstate]
  refine ⟨bytes, houtcome, hmirrors, ?_⟩
  rw [← hread]
  exact ⟨fun houtputs => houtputs.file, fun hfile => ⟨hfile, hmirrors⟩⟩

/-- A configuration with a file `out/a.out` and a mirror. -/
def mirrored (mirror : String) : Config where
  module := "tcc.wasm"
  image := none
  fuel := .unset
  options := .none
  directory := "out"
  filename := "a.out"
  mirror := some mirror
  terminal := false
  logLevel := Config.standardLogLevel

/-- A run with an artifact of one byte, which its configuration has delivered twice. -/
theorem run_mirrored {mirror : String} (hkinds : (deliver "a.out" ⟨#[65]⟩ (mirrored mirror).sinks
      (.empty [])).result = .ok ["file", "mirror"]) :
    ∃ report, (unfinished.run ⟨.none, ""⟩ (.fresh none) (mirrored mirror).sinks
        (.empty [])).result = .ok report ∧
      report.outcome = .payload ⟨#[65]⟩ ∧ report.delivered = ["file", "mirror"] := by
  obtain ⟨session, _, shows⟩ :=
    shows_of_payload ⟨.none, ""⟩ (mirrored mirror).sinks (.empty []) decoded_unfinished
  have hname : unfinished.artifactName = "a.out" := rfl
  rw [hname, hkinds] at shows
  exact ⟨_, shows.result, rfl, rfl⟩

theorem run_outputs_apart :
    (mirrored "elf.txt").validate = .ok () ∧
      ∃ report, (unfinished.run ⟨.none, ""⟩ (.fresh none) (mirrored "elf.txt").sinks
          (.empty [])).result = .ok report ∧
        report.outcome = .payload ⟨#[65]⟩ ∧ report.delivered = ["file", "mirror"] ∧
        (mirrored "elf.txt").HoldsOutputs "elf.txt" (unfinished.run ⟨.none, ""⟩ (.fresh none)
          (mirrored "elf.txt").sinks (.empty [])).state ⟨#[65]⟩ := by
  refine ⟨by with_unfolding_all rfl, ?_⟩
  have hkinds : (deliver "a.out" ⟨#[65]⟩ (mirrored "elf.txt").sinks (.empty [])).result =
      .ok ["file", "mirror"] := by with_unfolding_all rfl
  obtain ⟨report, hrun, houtcome, hdelivered⟩ := run_mirrored hkinds
  obtain ⟨bytes, hbytes, _, houtputs⟩ :=
    run_outputs_iff (c := mirrored "elf.txt") rfl rfl hrun hdelivered
  obtain rfl := Outcome.payload.inj (hbytes.symm.trans houtcome)
  exact ⟨report, hrun, houtcome, hdelivered, houtputs.2 (by decide +kernel)⟩

theorem not_outputs_over :
    (mirrored "out/a.out").validate = .ok () ∧
      ∃ report, (unfinished.run ⟨.none, ""⟩ (.fresh none) (mirrored "out/a.out").sinks
          (.empty [])).result = .ok report ∧
        report.outcome = .payload ⟨#[65]⟩ ∧ report.delivered = ["file", "mirror"] ∧
        ¬(mirrored "out/a.out").HoldsOutputs "out/a.out" (unfinished.run ⟨.none, ""⟩ (.fresh none)
          (mirrored "out/a.out").sinks (.empty [])).state ⟨#[65]⟩ := by
  refine ⟨by with_unfolding_all rfl, ?_⟩
  have hkinds : (deliver "a.out" ⟨#[65]⟩ (mirrored "out/a.out").sinks (.empty [])).result =
      .ok ["file", "mirror"] := by with_unfolding_all rfl
  obtain ⟨report, hrun, houtcome, hdelivered⟩ := run_mirrored hkinds
  refine ⟨report, hrun, houtcome, hdelivered, ?_⟩
  obtain ⟨_, _, shows⟩ := shows_of_payload ⟨.none, ""⟩ (mirrored "out/a.out").sinks (.empty [])
    decoded_unfinished
  rw [shows.state]
  intro houtputs
  have hapart := (Config.outputs_of_delivered rfl (by decide) hkinds).2.1 houtputs.file
  exact absurd hapart (by decide +kernel)

end Pipeline

end CompilerHost
