import Swimlane.Command.Run
import Swimlane.Proofs.Command.FileTree
import Swimlane.Proofs.Indentation

/-!
# Rendering from the command line

Rendering loads the options, then the text, compiles it and delivers the diagram. It delivers all of
the diagram or does nothing: where options or text cannot be loaded or the text is rejected, nothing
is printed, no file changes, and one failure is reported.

## Main definitions

* `World.Configures`, `World.Provides`: the options and the text that a command line stands for;
* `Transcript.FailsWith`: a command that does nothing but report a failure;
* `Transcript.Delivers`: a command that delivers a diagram;
* `Transcript.Renders`: what rendering comes to.

## Main statements

* `runLine_render`: every command line that asks to render.
-/

namespace Swimlane

/-- The options that a settings file describes, or the defaults without one. -/
inductive World.Configures (w : World) : Option String → Options → Prop where
  | defaults : w.Configures none {}
  | settings {path text : String} {options : Options} (read : w.files.readText? path = some text)
      (parsed : Settings.parse text = .ok options) : w.Configures (some path) options

/-- The text under a path, or on the standard input. -/
inductive World.Provides (w : World) : String → String → Prop where
  | input {path text : String} (standard : isStandardInput path = true)
      (read : String.fromUTF8? w.input = some text) : w.Provides path text
  | file {path text : String} (other : isStandardInput path = false)
      (read : w.files.readText? path = some text) : w.Provides path text

namespace World

variable {w : World}

theorem options_eq_ok_iff {config : Option String} {options : Options} :
    w.options config = .ok options ↔ w.Configures config options := by
  constructor
  · intro h
    cases config with
    | none =>
      cases h
      exact .defaults
    | some path =>
      simp only [World.options] at h
      split at h
      · cases h
      next text read =>
        split at h
        · cases h
        next parsed =>
          cases h
          exact .settings read parsed
  · rintro (_ | ⟨read, parsed⟩)
    · rfl
    · simp only [World.options, read, parsed]

theorem kind_of_options_eq_error {config : Option String} {f : Failure}
    (h : w.options config = .error f) : f.kind = .config := by
  have invalid {text : String} {fault : Fault} (h : Settings.parse text = .error fault) :
      fault.kind = .config := by
    unfold Settings.parse at h
    split at h
    · cases h
    · split at h
      · cases h
        rfl
      · split at h <;> cases h
        rfl
  unfold World.options at h
  split at h
  · cases h
  · split at h
    · cases h
      rfl
    · split at h
      · next parsed =>
        cases h
        exact invalid parsed
      · cases h

theorem provides_iff {path text : String} :
    w.Provides path text ↔ ∃ name, w.source path = .ok ⟨name, text⟩ := by
  constructor
  · rintro (⟨standard, read⟩ | ⟨other, read⟩)
    · exact ⟨"<stdin>", by simp [World.source, standard, read]⟩
    · exact ⟨path, by simp [World.source, other, read]⟩
  · rintro ⟨name, h⟩
    unfold World.source at h
    split at h
    · next standard =>
      split at h
      · next read =>
        cases h
        exact .input standard read
      · cases h
    · next other =>
      split at h
      · next read =>
        cases h
        exact .file (by simpa using other) read
      · cases h

theorem kind_of_source_eq_error {path : String} {f : Failure} (h : w.source path = .error f) :
    f.kind = .io := by
  unfold World.source at h
  split at h <;> split at h <;> cases h <;> rfl

end World

theorem ProcessGraph.kind_of_ofText_eq_error {options : ReadOptions} {text : String} {f : Failure}
    (h : ofText options text = .error f) : f.kind = .structural := by
  rw [ofText_eq_error, (scan_isTwoPass options.maxDepth text).failure] at h
  obtain ⟨p, -, failure⟩ := List.exists_of_findSome?_eq_some h
  obtain ⟨depth, -, -, rfl⟩ := Text.Piece.failure?_eq_some.1 failure
  rfl

namespace Transcript

/-- A command that has done nothing but report one failure. -/
structure FailsWith (t : Transcript) (w : World) (kind : FailureKind) : Prop where
  exitCode : t.exitCode = 1
  output : t.output = ""
  files : t.files = w.files
  report : ∃ f : Failure, t.reports = [.failure f] ∧ f.kind = kind

/-- A command that delivers a diagram: to the standard output, or as all that is in a file. No other
file changes, and none does if the file cannot be written. -/
structure Delivers (t : Transcript) (w : World) (output : Option String) (diagram : String) :
    Prop where
  printed : output = none → t.exitCode = 0 ∧ t.output = diagram ∧ t.files = w.files
  written : ∀ path files, output = some path →
    w.files.write? path diagram.toUTF8 = some files →
      t.exitCode = 0 ∧ t.output = "" ∧ ∀ path', t.files.read? path' =
        if w.files.place? path' = w.files.place? path then some diagram.toUTF8
        else w.files.read? path'
  unwritten : ∀ path, output = some path → w.files.write? path diagram.toUTF8 = none →
    t.exitCode = 1 ∧ t.output = "" ∧ t.files = w.files

/-- What rendering comes to. The diagram is that of the text under the configured options, but for
what the command line says of its direction and styles. -/
structure Renders (t : Transcript) (w : World) (file : String) (output : Option String)
    (direction : Option Direction) (noStyles : Bool) (config : Option String) : Prop where
  delivers : ∀ options text c, w.Configures config options → w.Provides file text →
    compile
      { options with
        draw :=
          { options.draw with
            direction := direction.getD options.draw.direction
            styles := if noStyles then false else options.draw.styles } } text = .ok c →
      t.Delivers w output c.diagram
  unconfigured : (∀ options, ¬ w.Configures config options) → t.FailsWith w .config
  unprovided : ∀ options, w.Configures config options → (∀ text, ¬ w.Provides file text) →
    t.FailsWith w .io
  rejected : ∀ options text f, w.Configures config options → w.Provides file text →
    ProcessGraph.ofText options.read text = .error f → t.FailsWith w .structural

end Transcript

namespace Command

variable {w : World} {threshold : Log.Threshold}

theorem fail_failsWith (w : World) (f : Failure) : (fail w f).FailsWith w f.kind :=
  ⟨rfl, rfl, rfl, f, rfl, rfl⟩

theorem deliver_delivers {output : Option String} {diagram : String} {t : Transcript}
    (exitCode : t.exitCode = 0) (silent : t.output = "") (files : t.files = w.files) :
    (deliver w threshold output diagram t).Delivers w output diagram where
  printed := by
    rintro rfl
    exact ⟨exitCode, rfl, files⟩
  written := by
    rintro path files rfl written
    simp only [deliver, written]
    exact ⟨exitCode, silent, FileTree.read?_write written⟩
  unwritten := by
    rintro path rfl written
    simp only [deliver, written, silent, files, and_self]

theorem runRender_renders (w : World) (threshold : Log.Threshold) (file : String)
    (output : Option String) (direction : Option Direction) (noStyles : Bool)
    (config : Option String) :
    (runRender w threshold file output direction noStyles config).Renders w file output direction
      noStyles config where
  delivers := by
    intro options text c configured provided compiled
    obtain ⟨name, sourced⟩ := World.provides_iff.1 provided
    have chosen : compile (drawOptions options direction noStyles) text = .ok c := by
      rw [← compiled, drawOptions]
      cases noStyles <;> simp
    simp only [runRender, load, World.options_eq_ok_iff.2 configured, sourced, chosen]
    exact deliver_delivers rfl rfl rfl
  unconfigured := by
    intro unconfigured
    cases loaded : w.options config with
    | ok options => exact absurd (World.options_eq_ok_iff.1 loaded) (unconfigured options)
    | error f =>
      rw [← World.kind_of_options_eq_error loaded]
      simpa only [runRender, load, loaded] using fail_failsWith w f
  unprovided := by
    intro options configured unprovided
    cases sourced : w.source file with
    | ok source =>
      exact absurd (World.provides_iff.2 ⟨source.name, sourced⟩) (unprovided source.text)
    | error f =>
      rw [← World.kind_of_source_eq_error sourced]
      simpa only [runRender, load, World.options_eq_ok_iff.2 configured, sourced]
        using fail_failsWith w f
  rejected := by
    intro options text f configured provided failed
    obtain ⟨name, sourced⟩ := World.provides_iff.1 provided
    have rejected : compile (drawOptions options direction noStyles) text = .error f := by
      simp [compile, drawOptions, failed, Except.map]
    rw [← ProcessGraph.kind_of_ofText_eq_error failed]
    simp only [runRender, load, World.options_eq_ok_iff.2 configured, sourced, rejected]
    exact fail_failsWith w (f.withSource name text)

end Command

/-- Every command line that asks to render delivers the diagram or does nothing. -/
theorem runLine_render {args : List String} {verbose : Nat} {file : String} {output : Option String}
    {direction : Option Direction} {noStyles : Bool} {config : Option String}
    (accepted : Arguments.parse args =
      .ok ⟨verbose, .render file output direction noStyles config⟩) (w : World) :
    (runLine w args).Renders w file output direction noStyles config := by
  rw [runLine, accepted]
  exact Command.runRender_renders w _ file output direction noStyles config

/-- A diagram is written over the text it is drawn from. -/
theorem runLine_render_over :
    let w : World := { files := { entries := [(["a.bpl"], .file "Review".toUTF8)] } }
    let t := runLine w ["render", "a.bpl", "-o./a.bpl", "--direction", "LR", "--no-styles"]
    ∃ c, compile { draw := { direction := .leftRight, styles := false } } "Review" = .ok c ∧
      t.exitCode = 0 ∧ t.output = "" ∧ t.files.read? "a.bpl" = some c.diagram.toUTF8 := by
  intro w t
  have accepted :
      Arguments.parse ["render", "a.bpl", "-o./a.bpl", "--direction", "LR", "--no-styles"] =
        .ok ⟨0, .render "a.bpl" (some "./a.bpl") (some .leftRight) true none⟩ := by
    decide +kernel
  have provided : w.Provides "a.bpl" "Review" :=
    .file (by decide) (FileTree.readText?_of_read? rfl)
  obtain ⟨c, compiled⟩ :
      ∃ c, compile { draw := { direction := .leftRight, styles := false } } "Review" = .ok c :=
    ⟨_, rfl⟩
  have delivers := (runLine_render accepted w).delivers {} "Review" c .defaults provided compiled
  obtain ⟨exitCode, silent, files⟩ := delivers.written "./a.bpl" _ rfl rfl
  exact ⟨c, compiled, exitCode, silent, (files "a.bpl").trans (if_pos rfl)⟩

end Swimlane
