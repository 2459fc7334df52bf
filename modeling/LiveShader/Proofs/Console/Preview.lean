import LiveShader.Proofs.Console.Playing
import LiveShader.Proofs.Files.Writing
/-!
# Proofs.Console.Preview — a source is shown as the driver gets it

Both showing the source of a shader and loading it assemble that source, from settings that are read twice: once for
the recipe and once for the options of a viewer.  Under the same settings and files the two agree, in what they make of
the source and of the files, and in why there is none (`preprocess_agrees`).
-/
namespace LiveShader
namespace Console

open Config Machine Window Source

variable {σ τ : Type}

section

variable {env : Environment} {args : List String} {script : Script σ} {host : Host σ} {world : World σ}
  {c : CommandLine} {name text : String} {settings : Settings} {version : GlVersion}

theorem execute_preprocess (hparse : CommandLine.parse args env.config = .ok c)
    (hcommand : c.command = some (.preprocess name))
    (hsettings : settingsFor world.files env.ownConfig? c.arguments = .ok settings) :
    (execute env args script).on host world =
      (.ofExcept (preprocess settings name world.files).1,
        { world with files := (preprocess settings name world.files).2 }) := by
  rw [execute_performs hparse hsettings, CommandLine.perform, hcommand]
  rfl

/-- A source that can be assembled is shown, and copied as its recipe says. -/
theorem execute_preprocess_ok (hparse : CommandLine.parse args env.config = .ok c)
    (hcommand : c.command = some (.preprocess name))
    (hsettings : settingsFor world.files env.ownConfig? c.arguments = .ok settings)
    (hversion : settings.glVersion = .ok version)
    (hsource : (settings.recipe version).fragmentSource world.files name = .ok text) :
    (execute env args script).on host world =
      (⟨text, .done⟩, { world with files := (settings.recipe version).dump text world.files }) := by
  rw [execute_preprocess hparse hcommand hsettings]
  simp only [preprocess, hversion, Recipe.assemble, hsource]
  rfl

/-- One that cannot is reported, and no file changes. -/
theorem execute_preprocess_error {e : SourceError} (hparse : CommandLine.parse args env.config = .ok c)
    (hcommand : c.command = some (.preprocess name))
    (hsettings : settingsFor world.files env.ownConfig? c.arguments = .ok settings)
    (hversion : settings.glVersion = .ok version)
    (hsource : (settings.recipe version).fragmentSource world.files name = .error e) :
    (execute env args script).on host world =
      (⟨"", .failed ⟨"failed to assemble shader '" ++ name ++ "'", e.message :: (e.cause?.map (·.message)).toList⟩⟩,
        world) := by
  rw [execute_preprocess hparse hcommand hsettings]
  simp only [preprocess, hversion, Recipe.assemble, hsource]
  rfl

end

/-- **A source is shown as the driver gets it.**  A shader is shown and, in a window opened under the same settings and
with the same files, loaded after whatever else the window did.  The source is shown iff the load does not fail for want
of one.  Then the load hands over to the driver, as fragment source, the text that is shown and no other, and hands it
over unless the driver refuses an object or the vertex stage before; both leave the same files, with that text in the
file for copies, if that can be written.  Otherwise both fail for the same reason, and before that the load makes
nothing and no file changes. -/
theorem preprocess_agrees (env : Environment) (args : List String) (script : Script σ) (host : Host σ)
    (world : World σ) {c : CommandLine} {name : String} {settings : Settings}
    (hparse : CommandLine.parse args env.config = .ok c) (hcommand : c.command = some (.preprocess name))
    (hsettings : settingsFor world.files env.ownConfig? c.arguments = .ok settings)
    (host' : Host τ) (turns : List (Viewer.Turn τ)) {opening entered later : World τ} {session : Session} {v : Viewer}
    (hopened : (Session.opened settings).on host' opening = (.ok session, entered))
    (hturns : (session.viewer.takeAll turns).on host' entered = (v, later)) (hfiles : later.files = world.files) :
    let shown := (execute env args script).on host world
    let loaded := (v.loadShader name).on host' later
    (shown.1.ending = .done ↔ ∀ e, loaded.1.1 ≠ .error (.source e)) ∧
    ∃ added, loaded.2.trace = later.trace ++ added ∧ loaded.2.files = shown.2.files ∧
      (shown.1.ending = .done →
        Program.handed .fragment (ledger later.trace) added =
            (if Program.handsOver loaded.1.1 then [shown.1.shown] else []) ∧
          ∀ path, settings.dumpSource = some path → world.files.Writable path →
            shown.2.files.readText path = .ok shown.1.shown) ∧
      (shown.1.ending ≠ .done → ∃ e,
        shown.1 = ⟨"", .failed
          ⟨"failed to assemble shader '" ++ name ++ "'", e.message :: (e.cause?.map (·.message)).toList⟩⟩ ∧
          loaded.1.1 = .error (.source e) ∧ (∀ x ∈ added, x.makes? = none) ∧ shown.2.files = world.files) := by
  intro shown loaded
  obtain ⟨-, -, hrecipe, -⟩ := Session.opened_settings settings opening.files host' opening rfl
  rw [hopened] at hrecipe
  obtain ⟨-, version, hversion, hrecipe⟩ := hrecipe session rfl
  have hkept := session.viewer.takeAll_recipe turns host' entered
  rw [hturns] at hkept
  have hrecipe : v.programs.recipe = settings.recipe version := hkept.trans hrecipe
  cases hsource : (settings.recipe version).fragmentSource world.files name with
  | ok text =>
    have hshown : shown = _ := execute_preprocess_ok hparse hcommand hsettings hversion hsource
    have hending : shown.1.ending = .done := by rw [hshown]
    rw [← hrecipe, ← hfiles] at hsource
    obtain ⟨hread, added, htrace, hleft, hhanded⟩ := Viewer.loadShader_read host' later hsource
    rw [hrecipe, hfiles] at hleft
    refine ⟨⟨fun _ => hread, fun _ => hending⟩, added, htrace, ?_, fun _ => ⟨?_, ?_⟩, fun h => absurd hending h⟩
    · rw [hshown]
      exact hleft
    · rw [hshown]
      exact hhanded
    · intro path hpath hwritable
      rw [hshown]
      simp only [Recipe.dump, Settings.recipe, hpath]
      exact Files.Tree.readText_write hwritable text
  | error e =>
    have hshown : shown = _ := execute_preprocess_error hparse hcommand hsettings hversion hsource
    have hending : shown.1.ending ≠ .done := by simp [hshown]
    rw [← hrecipe, ← hfiles] at hsource
    obtain ⟨hfailed, added, htrace, hleft, hmakes⟩ := Viewer.loadShader_unread host' later hsource
    refine ⟨⟨fun h => absurd h hending, fun h => absurd hfailed (h e)⟩, added, htrace, ?_, fun h => absurd h hending,
      fun _ => ⟨e, ?_, hfailed, hmakes, ?_⟩⟩
    · rw [hshown]
      exact hleft.trans hfiles
    · rw [hshown]
    · rw [hshown]

/-- A configuration file, and a store with a blank shader. -/
def configured : Files.Tree :=
  { top := .dir [
      ("c.toml", .file "store_root = \"s\"\ndump_source = \"out\"\n".toUTF8),
      ("s", .dir [("a.frag", .file ByteArray.empty)])]
    workDir := [] }

def configuredSettings : Settings := { storeRoot := "s", dumpSource := some "out" }

/-- What is shown of the blank shader, and the world after that. -/
@[irreducible] def previewed : Outcome × World Simulator.State :=
  (execute {} ["--config", "c.toml", "preprocess", "a"] {}).on Simulator.host { host := {}, files := configured }

/-- A window opened under the same settings. -/
@[irreducible] def configuredWindow : Except Report Session × World Simulator.State :=
  (Session.opened configuredSettings).on Simulator.host { host := {}, files := configured }

theorem preprocess_agrees_configured : previewed.1.ending = .done ∧ configured.Writable "out" ∧
    ∃ session entered, configuredWindow = (.ok session, entered) ∧
      let loaded := (session.viewer.loadShader "a").on Simulator.host entered
      (∀ e, loaded.1.1 ≠ .error (.source e)) ∧ ∃ added, loaded.2.trace = entered.trace ++ added ∧
        Program.handed .fragment (ledger entered.trace) added =
          (if Program.handsOver loaded.1.1 then [previewed.1.shown] else []) ∧
        loaded.2.files.readText "out" = .ok previewed.1.shown := by
  have hparse : CommandLine.parse ["--config", "c.toml", "preprocess", "a"] none =
      .ok ⟨some (.preprocess "a"), { config := some "c.toml" }⟩ := by decide +kernel
  have hsettings : settingsFor configured none { config := some "c.toml" } = .ok configuredSettings := by
    decide +kernel
  have hending : previewed.1.ending = .done := by decide +kernel
  have hfree : configured.walk "out" true = .ok (.free [] "out") := by rfl
  have hwritable : configured.Writable "out" := .free hfree rfl
  have hopens : configuredWindow.1.isOk = true := by decide +kernel
  refine ⟨hending, hwritable, ?_⟩
  rcases hwindow : configuredWindow with ⟨_ | session, entered⟩
  · rw [hwindow] at hopens
    cases hopens
  · have hopened : (Session.opened configuredSettings).on Simulator.host { host := {}, files := configured } =
        (.ok session, entered) := by rw [← hwindow, configuredWindow]
    obtain ⟨-, -, -, hfiles⟩ := Session.opened_settings configuredSettings configured Simulator.host
      { host := {}, files := configured } rfl
    rw [hopened] at hfiles
    obtain ⟨hsource, added, htrace, hsame, hshown, -⟩ := preprocess_agrees {} _ {} Simulator.host
      { host := {}, files := configured } hparse rfl hsettings Simulator.host [] hopened rfl hfiles
    rw [previewed] at hending ⊢
    obtain ⟨hhanded, hcopied⟩ := hshown hending
    refine ⟨session, entered, rfl, hsource.1 hending, added, htrace, hhanded, ?_⟩
    rw [hsame]
    exact hcopied "out" rfl hwritable

end Console
end LiveShader
