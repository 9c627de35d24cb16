import CompilerHost.Proofs.Workable

/-! # Names of artifacts

An artifact is named by the configuration, long before there is one. The name is checked when a
configuration is validated, and again by each sink that is handed the artifact. The two checks go
apart only for names of blanks, which are refused early and which sinks would take.

* `Outlet.invalidName_iff`: a configured sink refuses a name in one world exactly if it does in all;
* `Pipeline.refusal_of_run`: a delivery that fails in a run is the refusal of one of its sinks;
* `Config.names_agree`: no valid configuration is refused for its name, and none is invalid for it
  without need.
-/

namespace CompilerHost

/-! ## Refusals -/

/-- A sink takes no artifact of a name, whatever it is and wherever it is to go. -/
def Sink.Refuses {ω : Type} (s : Sink ω) (name : String) : Prop :=
  ∀ bytes world, (s.deliver name bytes world).result = .error (.invalidName name)

/-- Of all that a delivery can come to, one course alone blames the name. -/
theorem Deposit.invalidName_iff {d : Deposit} {fs : FileSystem} {name : String} :
    (d.deliver fs).result = .error (.invalidName name) ↔
      isBareName d.name = false ∧ name = d.name := by
  rw [← d.misnamed_iff]
  cases d.course fs with
  | misnamed hname hended =>
      rw [hended]
      constructor
      · intro h
        exact ⟨hname, (SinkFault.invalidName.inj (Except.error.inj h)).symm⟩
      · rintro ⟨_, rfl⟩
        rfl
  | failed hname before hadds path e journal hended =>
      rw [hended]
      refine iff_of_false ?_ fun h => hname h.1
      intro h
      cases Except.error.inj h
  | accepted hname before hadds hwrite journal hended =>
      rw [hended]
      exact iff_of_false nofun fun h => hname h.1

theorem Outlet.invalidName_iff {o : Outlet} {name other : String} {bytes : ByteArray}
    {fs : FileSystem} :
    (o.sink.deliver name bytes fs).result = .error (.invalidName other) ↔
      isBareName name = false ∧ other = name :=
  Deposit.invalidName_iff (d := ⟨o, name, bytes⟩)

theorem Outlet.refuses_of_not_bare {o : Outlet} {name : String} (h : isBareName name = false) :
    o.sink.Refuses name := by
  intro bytes fs
  exact invalidName_iff.2 ⟨h, rfl⟩

/-- The first refusal of a delivery is that of a sink in the world as it found it. The induction is
on the sinks, for any world. -/
theorem Pipeline.mem_of_firstRefusal {ω : Type} {name : String} {bytes : ByteArray}
    {sinks : List (Sink ω)} {world : ω} {kind : String} {cause : SinkFault}
    (h : firstRefusal name bytes sinks world = some (kind, cause)) :
    ∃ sink ∈ sinks, ∃ found, sink.kind = kind ∧
      (sink.deliver name bytes found).result = .error cause := by
  induction sinks generalizing world with
  | nil => cases h
  | cons sink rest ih =>
      rw [firstRefusal] at h
      cases hanswer : (sink.deliver name bytes world).result with
      | ok _ =>
          rw [hanswer] at h
          obtain ⟨other, hmem, hother⟩ := ih h
          exact ⟨other, List.mem_cons_of_mem sink hmem, hother⟩
      | error actual =>
          rw [hanswer] at h
          obtain ⟨hkind, rfl⟩ := Prod.mk.inj (Option.some.inj h)
          exact ⟨sink, List.mem_cons_self, world, hkind, hanswer⟩

/-- A run that fails in the name of a sink came to an artifact, which that sink did not take. -/
theorem Pipeline.refusal_of_run {σ ω : Type} {p : Pipeline σ} {request : Request} {log : Log}
    {sinks : List (Sink ω)} {world : ω} {kind : String} {cause : SinkFault}
    (h : (p.run request log sinks world).result = .error (.delivery kind cause)) :
    ∃ bytes, p.decoded request log = .ok (.payload bytes) ∧
      firstRefusal p.artifactName bytes sinks world = some (kind, cause) := by
  have hcomesTo := p.comesTo request log sinks world
  rw [h] at hcomesTo
  cases hcomesTo with
  | refused bytes _ _ hdecoded hrefusal => exact ⟨bytes, hdecoded, hrefusal⟩

namespace Config

/-- The configuration with its paths seen from one base after the other. -/
def resolvedFrom (bases : List String) (c : Config) : Config :=
  bases.foldl (fun seen base => seen.resolvePaths base) c

/-- From wherever the paths are seen, the name stays. -/
theorem filename_resolvedFrom (bases : List String) (c : Config) :
    (c.resolvedFrom bases).filename = c.filename := by
  induction bases generalizing c with
  | nil => rfl
  | cons base bases ih => exact ih (c.resolvePaths base)

theorem artifactName_of_pipeline {σ S : Type} {c : Config} {engine : Engine σ} {fs : FileSystem}
    {s : S} {p : Pipeline σ} (h : (c.pipeline engine fs s).result = .ok p) :
    p.artifactName = c.filename := by
  obtain ⟨loaded, _, h⟩ := Action.ok_of_bind_ok h
  obtain ⟨image, _, h⟩ := Action.ok_of_bind_ok h
  obtain rfl := Except.ok.inj h
  rfl

/-- In no configured run does a sink refuse the name of the artifact, whatever the guest is. -/
def NeverMisnamed (c : Config) : Prop :=
  ∀ (σ S : Type) (engine : Engine σ) (files : FileSystem) (s : S) (p : Pipeline σ),
    (c.pipeline engine files s).result = .ok p →
      ∀ request log fs kind name,
        (p.run request log c.sinks fs).result ≠ .error (.delivery kind (.invalidName name))

/-- A bare name is refused by none of the sinks, in no run. -/
theorem neverMisnamed_of_bare {c : Config} (h : isBareName c.filename = true) :
    c.NeverMisnamed := by
  intro σ S engine files s p hpipeline request log fs kind name hrun
  obtain ⟨bytes, _, hrefusal⟩ := Pipeline.refusal_of_run hrun
  obtain ⟨sink, hsink, found, _, hanswer⟩ := Pipeline.mem_of_firstRefusal hrefusal
  rw [sinks_eq] at hsink
  obtain ⟨o, _, rfl⟩ := List.mem_map.1 hsink
  have hmisnamed := (Outlet.invalidName_iff.1 hanswer).1
  rw [artifactName_of_pipeline hpipeline, h] at hmisnamed
  cases hmisnamed

/-- Some file sink of a configuration refuses its name exactly if that is not bare. -/
theorem exists_file_refuses_iff {c : Config} :
    (∃ sink ∈ c.sinks, sink.kind = "file" ∧ sink.Refuses c.filename) ↔
      isBareName c.filename = false := by
  constructor
  · rintro ⟨sink, hsink, _, hrefuses⟩
    rw [sinks_eq] at hsink
    obtain ⟨o, _, rfl⟩ := List.mem_map.1 hsink
    -- any world will do
    have hanswer := hrefuses .empty (FileSystem.laidOut [] [] [] .empty)
    exact (Outlet.invalidName_iff.1 hanswer).1
  · intro hbare
    exact ⟨_, List.mem_cons_self, rfl, Outlet.refuses_of_not_bare (o := .file c.directory) hbare⟩

/-- A valid configuration is never refused for its name: from wherever its paths are seen, in no
run of it is there a sink that blames the name. A configuration is invalid for its name only if that
is blank, or the sinks for files would refuse it, and if the guest is named it always is then. -/
theorem names_agree (c : Config) :
    (c.validate = .ok () → ∀ bases, (c.resolvedFrom bases).NeverMisnamed) ∧
    ((∃ reason, c.validate = .error (.invalidValue "output.filename" reason)) ↔
      c.module ≠ "" ∧ (Text.isBlankText c.filename = true ∨
        ∃ sink ∈ c.sinks, sink.kind = "file" ∧ sink.Refuses c.filename)) := by
  refine ⟨?_, ?_⟩
  · intro hvalid bases
    have hbare := (isGoodName_of_validate hvalid).bare
    rw [← filename_resolvedFrom bases c] at hbare
    exact neverMisnamed_of_bare hbare
  · rw [invalid_filename_iff, exists_file_refuses_iff, not_isGoodName_iff]

theorem names_agree_bounded :
    (bounded 0 4).validate = .ok () ∧
      ∀ bases, ((bounded 0 4).resolvedFrom bases).NeverMisnamed := by
  have hvalid : (bounded 0 4).validate = .ok () := by with_unfolding_all rfl
  exact ⟨hvalid, (names_agree (bounded 0 4)).1 hvalid⟩

end Config

end CompilerHost
