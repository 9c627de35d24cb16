import CompilerHost.Host
import CompilerHost.Proofs.Frugality
import CompilerHost.Proofs.Layout
import CompilerHost.Proofs.Validation

/-! # Configurations that can work

To be valid is not to work. A configuration works in a world where its guest and its image can be
loaded, the guest comes to an artifact, and all sinks take that. Of a valid one two things settle
whether there is any such world: its fuel has to be enough for the most frugal compile, and its
files have to fit together.

* `Outlet.firstRefusal_of_ready`, `Outlet.hasFiles_of_accepted`: outlets that deliver one after
  another need their ways open, and leave all files that they are to leave;
* `Config.hasMeans_of_works`: what a configuration that works has;
* `Config.works_of_hasMeans`: where it has that, there is a world in which every run succeeds;
* `Config.canWork_iff`: so a valid configuration can work exactly if it has these means.
-/

namespace CompilerHost

open FileSystem (NamesFile Fits Standing)
open Pipeline (firstRefusal fuelNeeded)

/-! ## Outlets, one after another -/

namespace Outlet

variable {outlets : List Outlet} {name : String} {bytes : ByteArray} {fs : FileSystem}

/-- Where all ways are open no outlet refuses: each puts a file where no directory is, which leaves
the other ways open. The induction is on the outlets. -/
theorem firstRefusal_of_ready (hname : isBareName name = true)
    (h : ∀ o ∈ outlets, NamesFile (o.target name) ∧ fs.Ready (o.target name)) :
    firstRefusal name bytes (outlets.map sink) fs = none := by
  induction outlets generalizing fs with
  | nil => rfl
  | cons o rest ih =>
      rw [List.forall_mem_cons] at h
      rcases h with ⟨⟨htarget, hready⟩, hrest⟩
      have hnamed : ¬(Deposit.mk o name bytes).Misnamed := by
        rw [Deposit.misnamed_iff, hname]
        exact nofun
      rcases Deposit.deliver_of_ready hnamed htarget hready with ⟨haccepted, hstate⟩
      apply Pipeline.firstRefusal_cons_eq_none_iff.2
      constructor
      · exact haccepted
      · rw [show (o.sink.deliver name bytes fs).state = _ from hstate]
        apply ih
        intro other hother
        rcases hrest other hother with ⟨hother, hopen⟩
        exact ⟨hother, hopen.put hready.free _⟩

/-- Outlets that accept leave their files, beside those that are kept. The induction is on the
outlets; what one has left is kept by those behind it. -/
theorem hasFiles_of_accepted {kept : List String}
    (hnone : firstRefusal name bytes (outlets.map sink) fs = none)
    (hkept : ∀ p ∈ kept, ∃ content, fs.HasFile p content) :
    ∃ fs' : FileSystem, fs'.KeepsDirectories fs ∧
      ∀ p ∈ kept ++ outlets.map (·.target name), ∃ content, fs'.HasFile p content := by
  induction outlets generalizing fs kept with
  | nil =>
      refine ⟨fs, .refl fs, ?_⟩
      rw [List.map_nil, List.append_nil]
      exact hkept
  | cons o rest ih =>
      let d : Deposit := ⟨o, name, bytes⟩
      rcases Pipeline.firstRefusal_cons_eq_none_iff.1 hnone with ⟨haccepted, hrest⟩
      have hmore : ∀ p ∈ kept ++ [o.target name], ∃ content,
          (d.deliver fs).state.HasFile p content := by
        intro p hp
        rcases List.mem_append.1 hp with hp | hp
        · rcases hkept p hp with ⟨content, hcontent⟩
          exact ⟨_, d.hasFile_deliver hcontent⟩
        · obtain rfl := List.mem_singleton.1 hp
          have hwritten := ((d.exact_deliver fs).written haccepted).1
          exact ⟨_, FileSystem.hasFile_iff.2 hwritten⟩
      rcases ih hrest hmore with ⟨fs', hkeeps, hfiles⟩
      refine ⟨fs', hkeeps.trans (d.keepsDirectories_deliver fs), ?_⟩
      rw [List.map_cons, List.append_cons]
      exact hfiles

end Outlet

/-! ## What is loaded -/

section Loading

variable {S : Type} {fs : FileSystem} {kind path : String} {bytes : ByteArray} {s : S}

theorem result_loadArtifact (fs : FileSystem) (kind path : String) (s : S) :
    (loadArtifact fs kind path s).result = readArtifact fs path := by
  unfold loadArtifact
  cases readArtifact fs path with
  | ok bytes => rfl
  | error e => rfl

/-- An artifact is read from a file that is not too large. -/
theorem readArtifact_eq_ok_iff :
    readArtifact fs path = .ok bytes ↔ fs.HasFile path bytes ∧ bytes.size ≤ maxArtifactBytes := by
  rw [FileSystem.hasFile_iff, readArtifact]
  cases fs.read path with
  | error e => exact ⟨nofun, fun h => nomatch h.1⟩
  | ok content =>
      simp only [checkArtifactSize]
      constructor
      · intro h
        split at h
        · obtain rfl := Except.ok.inj h
          exact ⟨rfl, ‹_›⟩
        · cases h
      · rintro ⟨hsame, hsize⟩
        obtain rfl := Except.ok.inj hsame
        rw [if_pos hsize]
        rfl

end Loading

namespace Config

variable {c : Config} {fs : FileSystem} {request : Request} {log : Log}

/-- The outlets that the sinks are. -/
def outlets (c : Config) : List Outlet := .file c.directory :: (c.mirror.map Outlet.mirror).toList

theorem sinks_eq (c : Config) : c.sinks = c.outlets.map Outlet.sink := by
  unfold sinks outlets
  cases c.mirror with
  | none => rfl
  | some path => rfl

/-- The paths that are read. -/
def inputs (c : Config) : List String := c.module :: c.image.toList

/-- The paths of all files that a compile has to do with. -/
def files (c : Config) : List String := c.inputs ++ c.outlets.map (·.target c.filename)

/-- A configured run succeeds: the guest and the image can be loaded, the run comes to an artifact,
and all sinks accept it. -/
def Works (c : Config) (fs : FileSystem) (request : Request) (log : Log) : Prop :=
  ∃ p report, (c.pipeline Engine.standard fs ()).result = .ok p ∧
    (p.run request log c.sinks fs).result = .ok report ∧ report.succeeded = true ∧
    report.delivered = c.sinks.map Sink.kind

/-- A world for a configuration: a tree of files, with a guest in it that is nothing but a module.
Scripts, which the engine takes in place of code, do not count. -/
structure Offers (fs : FileSystem) (c : Config) : Prop where
  standing : fs.Standing
  plain : ∀ bytes, fs.read c.module = .ok bytes → Engine.IsPlain bytes

/-- There is some file system, with some guest and some image in it, in which some run succeeds. -/
def CanWork (c : Config) : Prop := ∃ fs request log, Offers fs c ∧ c.Works fs request log

/-- What a configuration needs of itself to work: fuel for the most frugal compile, and files that
fit together for those who are at home somewhere. -/
structure HasMeans (c : Config) : Prop where
  fuel : fuelNeeded c.image ≤ c.fuel.effective.toNat
  places : ∃ home, Fits home c.files

/-! ## What a run that succeeds has -/

/-- What a pipeline that could be loaded was loaded from. -/
theorem loaded_of_pipeline {p : Pipeline Engine.State}
    (h : (c.pipeline Engine.standard fs ()).result = .ok p) :
    (∃ bytes guest, fs.HasFile c.module bytes ∧ Engine.standard bytes = some guest ∧
        p.loaded = ⟨guest, c.fuel.effective⟩) ∧
      (∀ path ∈ c.image, ∃ image, fs.HasFile path image) ∧
      p.image.isSome = c.image.isSome ∧ p.artifactName = c.filename := by
  obtain ⟨loaded, hloaded, h⟩ := Action.ok_of_bind_ok h
  obtain ⟨image, himage, h⟩ := Action.ok_of_bind_ok h
  obtain rfl := Except.ok.inj h
  obtain ⟨bytes, hbytes, hengine⟩ := Action.ok_of_bind_ok hloaded
  rw [result_loadArtifact] at hbytes
  obtain ⟨_, _, _, guest, hguest, rfl⟩ := Loaded.inspected_of_ofBytes hengine
  refine ⟨⟨bytes, guest, (readArtifact_eq_ok_iff.1 hbytes).1, hguest, rfl⟩, ?_⟩
  unfold loadImage at himage
  cases hi : c.image with
  | none =>
      rw [hi] at himage
      obtain rfl := Except.ok.inj himage
      exact ⟨nofun, rfl, rfl⟩
  | some path =>
      rw [hi] at himage
      obtain ⟨content, hcontent, hsome⟩ := Action.ok_of_bind_ok himage
      obtain rfl := Except.ok.inj hsome
      rw [result_loadArtifact] at hcontent
      refine ⟨?_, rfl, rfl⟩
      rintro _ ⟨⟩
      exact ⟨content, (readArtifact_eq_ok_iff.1 hcontent).1⟩

/-- A configuration that works anywhere has the means. -/
theorem hasMeans_of_works (hoffers : Offers fs c) (h : c.Works fs request log) : c.HasMeans := by
  rcases h with ⟨p, report, hpipeline, hrun, hsucceeded, _⟩
  rcases loaded_of_pipeline hpipeline with
    ⟨⟨bytes, guest, hmodule, hguest, hloaded⟩, himages, himage, hname⟩
  rcases Pipeline.accepted_of_succeeded hrun hsucceeded with ⟨artifact, hdecoded, _, hnone, _⟩
  constructor
  · have hplain := hoffers.plain bytes (FileSystem.hasFile_iff.1 hmodule)
    have hspends : p.loaded.guest.Spends := by
      rw [hloaded]
      exact Engine.spends_of_plain hplain hguest
    have hneeded := Pipeline.fuelNeeded_le_of_decoded hspends hdecoded
    rw [fuelNeeded, himage, hloaded] at hneeded
    exact hneeded
  · -- the files that were read are still there behind the deliveries, with those that were written
    have hinputs : ∀ path ∈ c.inputs, ∃ content, fs.HasFile path content := by
      intro path hpath
      rcases List.mem_cons.1 hpath with rfl | hpath
      · exact ⟨bytes, hmodule⟩
      · exact himages path (Option.mem_toList.1 hpath)
    rw [hname, sinks_eq] at hnone
    rcases Outlet.hasFiles_of_accepted hnone hinputs with ⟨fs', hkeeps, hfiles⟩
    have hproper := hoffers.standing.proper_home
    have hgrounded := hoffers.standing.grounded.of_keepsDirectories hkeeps
    rw [← hkeeps.workingDirectory] at hproper hgrounded
    exact ⟨fs'.workingDirectory, Fits.of_hasFiles hproper hgrounded hfiles⟩

/-! ## A world for those that have the means -/

/-- Where the frugal module stands for the guest and for the image, both can be loaded. -/
theorem pipeline_of_stored (h : ∀ path ∈ c.inputs, fs.HasFile path Frugal.bytes) :
    (c.pipeline Engine.standard fs ()).result =
      .ok ⟨⟨Frugal.guest, c.fuel.effective⟩, c.image.map fun _ => Frugal.bytes, c.filename⟩ := by
  have hsize : Frugal.bytes.size ≤ maxArtifactBytes := by decide +kernel
  have hload : ∀ kind, ∀ path ∈ c.inputs, ∀ s : Unit,
      (loadArtifact fs kind path s).result = .ok Frugal.bytes := by
    intro kind path hpath s
    rw [result_loadArtifact]
    exact readArtifact_eq_ok_iff.2 ⟨h path hpath, hsize⟩
  have hloaded : (Loaded.ofFile Engine.standard fs c.module c.fuel.effective ()).result =
      .ok ⟨Frugal.guest, c.fuel.effective⟩ := by
    rw [Loaded.ofFile, Action.bind_of_ok _ (hload _ _ List.mem_cons_self ())]
    exact Frugal.ofBytes_bytes c.fuel.effective _
  have himage : ∀ s : Unit, (c.loadImage fs s).result =
      .ok (c.image.map fun _ => Frugal.bytes) := by
    intro s
    unfold loadImage
    cases hi : c.image with
    | none => rfl
    | some path =>
        have hpath : path ∈ c.inputs := by
          rw [inputs, hi]
          exact List.mem_cons_of_mem _ List.mem_cons_self
        show ((some <$> loadArtifact fs imageLabel path) s).result = _
        rw [Action.map_apply, hload _ path hpath s]
        rfl
  rw [pipeline, Action.bind_of_ok _ hloaded, Ended.behind_result, Action.bind_of_ok _ (himage _)]
  rfl

/-- Where the means are there, the files can be laid out so that every run succeeds. -/
theorem works_of_hasMeans (hvalid : c.validate = .ok ()) (h : c.HasMeans) :
    ∃ fs, Offers fs c ∧ ∀ request log, c.Works fs request log := by
  rcases h with ⟨hfuel, home, hfits⟩
  let fs := FileSystem.laidOut home c.files c.inputs Frugal.bytes
  have hinputs : c.inputs ⊆ c.files := List.subset_append_left _ _
  have hstored : ∀ path ∈ c.inputs, fs.HasFile path Frugal.bytes :=
    fun path hpath => FileSystem.hasFile_laidOut hfits (hinputs hpath) hpath
  have hoffers : Offers fs c := by
    constructor
    · exact FileSystem.standing_laidOut hfits hinputs
    · intro bytes hbytes
      have hmodule := FileSystem.hasFile_iff.1 (hstored c.module List.mem_cons_self)
      obtain rfl := Except.ok.inj (hmodule.symm.trans hbytes)
      exact Frugal.isPlain_bytes
  refine ⟨fs, hoffers, ?_⟩
  intro request log
  let p : Pipeline Engine.State :=
    ⟨⟨Frugal.guest, c.fuel.effective⟩, c.image.map fun _ => Frugal.bytes, c.filename⟩
  have hdecoded : p.decoded request log = .ok (.payload Frugal.output) := by
    apply Frugal.decoded rfl
    · intro image himage
      obtain ⟨_, _, rfl⟩ := Option.map_eq_some_iff.1 himage
      decide +kernel
    · show fuelNeeded (c.image.map _) ≤ _
      rw [fuelNeeded, Option.isSome_map]
      exact hfuel
  have hnone : firstRefusal p.artifactName Frugal.output c.sinks fs = none := by
    rw [sinks_eq]
    apply Outlet.firstRefusal_of_ready (isGoodName_of_validate hvalid).bare
    intro o ho
    have hfile : o.target c.filename ∈ c.files :=
      List.mem_append_right _ (List.mem_map_of_mem ho)
    exact ⟨hfits.names _ hfile, FileSystem.ready_laidOut hfits hfile⟩
  rcases Pipeline.shows_of_payload request c.sinks fs hdecoded with ⟨session, _, shows⟩
  have hresult := shows.result
  rw [Pipeline.result_deliver, hnone] at hresult
  exact ⟨p, _, pipeline_of_stored hstored, hresult, rfl, rfl⟩

/-! ## Which configurations can work -/

/-- A valid configuration can work exactly if it has the means: two units of fuel, or four with an
image, and files that fit together. Then there is a world in which every run succeeds. -/
theorem canWork_iff (hvalid : c.validate = .ok ()) :
    (c.CanWork ↔ c.HasMeans) ∧
      (c.HasMeans → ∃ fs, Offers fs c ∧ ∀ request log, c.Works fs request log) := by
  refine ⟨⟨?_, ?_⟩, works_of_hasMeans hvalid⟩
  · rintro ⟨fs, request, log, hoffers, hworks⟩
    exact hasMeans_of_works hoffers hworks
  · intro hmeans
    rcases works_of_hasMeans hvalid hmeans with ⟨fs, hoffers, hworks⟩
    exact ⟨fs, ⟨.none, ""⟩, .fresh none, hoffers, hworks _ _⟩

/-- A configuration with an image and both outputs, and with bounds on its fuel. -/
def bounded (minimum maximum : UInt64) : Config where
  module := "tcc.wasm"
  image := some "lib/romfs.img"
  fuel := ⟨none, some minimum, some maximum⟩
  options := .none
  directory := "out"
  filename := "a.out"
  mirror := some "out/text/elf.txt"
  terminal := false
  logLevel := standardLogLevel

theorem canWork_four :
    (bounded 0 4).validate = .ok () ∧ (bounded 0 4).HasMeans ∧ (bounded 0 4).CanWork := by
  have hvalid : (bounded 0 4).validate = .ok () := by with_unfolding_all rfl
  have hmeans : (bounded 0 4).HasMeans := ⟨by decide, ["home"], by decide +kernel⟩
  exact ⟨hvalid, hmeans, (canWork_iff hvalid).1.2 hmeans⟩

/-- Without fuel nothing can work, though the bounds do not cross. -/
theorem not_canWork_zero : (bounded 0 0).validate = .ok () ∧ ¬(bounded 0 0).CanWork := by
  refine ⟨by with_unfolding_all rfl, ?_⟩
  rintro ⟨fs, request, log, hoffers, hworks⟩
  have hfuel := (hasMeans_of_works hoffers hworks).fuel
  exact absurd hfuel (by decide)

end Config

end CompilerHost
