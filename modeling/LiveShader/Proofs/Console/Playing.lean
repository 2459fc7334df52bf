import LiveShader.Console.Outcome
import LiveShader.Proofs.Program.Handing
import LiveShader.Proofs.Window.Session
/-!
# Proofs.Console.Playing — the viewer of a session

A session is opened with a viewer that assembles sources as the settings say (`Session.opened_settings`), and it does so
whatever it shows (`takeAll_recipe`): a shader that has a source is handed over (`loadShader_read`), and one without
makes nothing (`loadShader_unread`).  What is answered at the prompt moves the viewer by its own steps
(`Session.converse_proceeds`) and leaves the store, so shaders are always loaded from the store that is listed
(`Session.Matched`).
-/
namespace LiveShader

open Machine

variable {σ : Type}

namespace Window.Viewer

/-- Loading a shader is a load of the slot, and leaves what assembling its source leaves. -/
theorem loadShader_follows (v : Viewer) (name : String) (files : Files.Tree) :
    (v.loadShader name : Run σ _).Follows files fun r t f =>
      ∃ loaded, Program.Slot.Loads v.programs files name loaded t ∧ r = (loaded.1, { v with programs := loaded.2 }) ∧
        f = (v.programs.recipe.assemble files name).2 := by
  refine .bind (Program.Slot.load_follows v.programs files name) fun loaded t f h => .pure ?_
  rw [List.append_nil]
  exact ⟨loaded, h.1, rfl, h.2⟩

section

variable {v : Viewer} {name text : String} (host : Host σ) (w : World σ)

/-- **Loading a shader that has a source** hands it over, once, if it comes so far, and does not fail for want of one. -/
theorem loadShader_read (hsource : v.programs.recipe.fragmentSource w.files name = .ok text) :
    let loaded := (v.loadShader name).on host w
    (∀ e, loaded.1.1 ≠ .error (.source e)) ∧ ∃ added, loaded.2.trace = w.trace ++ added ∧
      loaded.2.files = v.programs.recipe.dump text w.files ∧
      Program.handed .fragment (ledger w.trace) added = if Program.handsOver loaded.1.1 then [text] else [] := by
  intro loaded
  obtain ⟨added, htrace, p, hloads, hresult, hleft⟩ := v.loadShader_follows name w.files host w rfl
  have hresult : loaded.1.1 = p.1 := congrArg (·.1) hresult
  obtain ⟨hhanded, hread⟩ := hloads.read hsource
  rw [hresult]
  refine ⟨hread, added, htrace, ?_, hhanded⟩
  rw [hleft, Source.Recipe.assemble, hsource]

/-- **Loading a shader that has none** fails with the reason, and makes nothing. -/
theorem loadShader_unread {e : Source.SourceError}
    (hsource : v.programs.recipe.fragmentSource w.files name = .error e) :
    let loaded := (v.loadShader name).on host w
    loaded.1.1 = .error (.source e) ∧ ∃ added, loaded.2.trace = w.trace ++ added ∧ loaded.2.files = w.files ∧
      ∀ x ∈ added, x.makes? = none := by
  intro loaded
  obtain ⟨added, htrace, p, hloads, hresult, hleft⟩ := v.loadShader_follows name w.files host w rfl
  have hresult : loaded.1.1 = p.1 := congrArg (·.1) hresult
  obtain ⟨hfailed, hmakes⟩ := hloads.unread hsource
  rw [hresult]
  refine ⟨hfailed, added, htrace, ?_, hmakes⟩
  rw [hleft, Source.Recipe.assemble, hsource]

/-- A load fails for want of a source just when there is none. -/
theorem loadShader_source_iff {e : Source.SourceError} :
    ((v.loadShader name).on host w).1.1 = .error (.source e) ↔
      v.programs.recipe.fragmentSource w.files name = .error e := by
  cases hsource : v.programs.recipe.fragmentSource w.files name with
  | ok text =>
    obtain ⟨hread, -⟩ := loadShader_read host w hsource
    simp [hread e]
  | error e' =>
    obtain ⟨hfailed, -⟩ := loadShader_unread host w hsource
    simp [hfailed]

end

theorem takeAll_recipe (v : Viewer) (turns : List (Turn σ)) (host : Host σ) (world : World σ) :
    ((v.takeAll turns).on host world).1.programs.recipe = v.programs.recipe := by
  obtain ⟨t, -, hsteps⟩ := takeAll_proceeds v turns world.files host world rfl
  exact Steps.recipe hsteps

end Window.Viewer

namespace Console

open Config

/-- **A session is opened as its settings say.** -/
theorem Session.opened_settings (settings : Settings) :
    (Session.opened settings : Run σ (Except Report Session)).Calls fun r _ => ∀ s, r = .ok s →
      s.store = settings.store ∧
        ∃ version, settings.glVersion = .ok version ∧ s.viewer.programs.recipe = settings.recipe version := by
  intro files
  unfold Session.opened Settings.options
  cases hvalid : settings.validate with
  | error flaw => exact .pure ⟨fun _ h => (by cases h), rfl⟩
  | ok _ =>
    cases hversion : settings.glVersion with
    | error flaw => exact .pure ⟨fun _ h => (by cases h), rfl⟩
    | ok version =>
      refine .calls (Window.Viewer.opened_recipe _ .declared) fun made t hrecipe => ?_
      match made with
      | .error _ => exact .pure ⟨fun _ h => (by cases h), rfl⟩
      | .ok v =>
        refine .pure ⟨fun s h => ?_, rfl⟩
        cases h
        exact ⟨rfl, version, rfl, hrecipe v rfl⟩

/-- Arguments that ask for a task under settings that hold perform it. -/
theorem execute_performs {env : Environment} {args : List String} {script : Script σ} {host : Host σ} {w : World σ}
    {c : CommandLine} {settings : Settings} (hparse : CommandLine.parse args env.config = .ok c)
    (hsettings : settingsFor w.files env.ownConfig? c.arguments = .ok settings) :
    (execute env args script).on host w = (c.perform settings script).on host w := by
  have hread : (withFiles fun t => (settingsFor t env.ownConfig? c.arguments, t)).on host w = (.ok settings, w) :=
    congrArg (·, w) hsettings
  unfold execute
  rw [hparse]
  simp only [Run.on_bind, hread]

namespace Session

open Window (Viewer)

/-! ## A session proceeds in steps of its viewer -/

theorem play_proceeds (s : Session) (name : String) (happenings : List (Viewer.Happening σ)) :
    Viewer.Proceeds [] s.viewer (fun r => r.2.viewer) (s.play name happenings) := by
  refine .bind (Viewer.loadShader_proceeds s.viewer name) fun loaded => ?_
  match loaded with
  | (.error _, _) => exact .pure (.nil _)
  | (.ok (), v) =>
    refine .bind (Viewer.run_proceeds v happenings) fun ran => ?_
    match ran with
    | (.error _, _) => exact .pure (.nil _)
    | (.ok (), _) => exact .pure (.nil _)

theorem answer_proceeds (s : Session) (happenings : List (Viewer.Happening σ)) (command : PromptCommand) :
    Viewer.Proceeds [] s.viewer (fun r => r.2.viewer) (s.answer happenings command) := by
  cases command with
  | quit | blank | help => exact .pure (.nil _)
  | list => exact fun _ _ _ _ => ⟨[], (List.append_nil _).symm, .nil _⟩
  | load name => exact play_proceeds s name happenings

theorem take_proceeds (s : Session) (entry : Entry σ) :
    Viewer.Proceeds [] s.viewer (fun r => r.2.viewer) (s.take entry) := by
  unfold take
  split
  · exact .pure (.nil _)
  · split
    · exact .pure (.nil _)
    · refine .bind (answer_proceeds s entry.happenings _) fun answered => ?_
      match answered with
      | (.error _, _) => exact .pure (.nil _)
      | (.ok _, _) => exact .pure (.nil _)

theorem converse_proceeds : ∀ (s : Session) (entries : List (Entry σ)),
    Viewer.Proceeds [] s.viewer (fun r => r.2.viewer) (s.converse entries)
  | s, [] => .pure (.nil _)
  | s, entry :: rest => by
    refine .bind (take_proceeds s entry) fun taken => ?_
    match taken with
    | (.ended _, _) => exact .pure (.nil _)
    | (.answered _, s') => exact .bind (converse_proceeds s' rest) fun _ => .pure (.nil _)

/-! ## The store is for good -/

theorem play_store (s : Session) (name : String) (happenings : List (Viewer.Happening σ)) (host : Host σ)
    (w : World σ) : ((s.play name happenings).on host w).1.2.store = s.store := by
  unfold play
  rw [Run.on_bind]
  rcases (s.viewer.loadShader name).on host w with ⟨⟨_ | _, v⟩, w'⟩
  · rfl
  · simp only [Run.on_bind]
    rcases (v.run happenings).on host w' with ⟨⟨_ | _, v'⟩, w''⟩ <;> rfl

theorem answer_store (s : Session) (happenings : List (Viewer.Happening σ)) (command : PromptCommand) (host : Host σ)
    (w : World σ) : ((s.answer happenings command).on host w).1.2.store = s.store := by
  cases command with
  | quit | blank | help | list => rfl
  | load name => exact play_store s name happenings host w

theorem take_store (s : Session) (entry : Entry σ) (host : Host σ) (w : World σ) :
    ((s.take entry).on host w).1.2.store = s.store := by
  unfold take
  split
  · rfl
  · next line _ =>
    split
    · rfl
    · rw [Run.on_bind]
      have hstore := answer_store s entry.happenings (PromptCommand.parse (some line)) host w
      rcases hanswer : (s.answer entry.happenings (PromptCommand.parse (some line))).on host w with ⟨⟨_ | _, s'⟩, w'⟩
      all_goals
        rw [hanswer] at hstore
        exact hstore

theorem converse_store (host : Host σ) : ∀ (entries : List (Entry σ)) (s : Session) (w : World σ),
    ((s.converse entries).on host w).1.2.store = s.store
  | [], _, _ => rfl
  | entry :: rest, s, w => by
    have hstore := take_store s entry host w
    unfold converse
    rw [Run.on_bind]
    rcases htake : (s.take entry).on host w with ⟨⟨turn, s'⟩, w'⟩
    rw [htake] at hstore
    cases turn with
    | ended _ => exact hstore
    | answered _ => exact (converse_store host rest s' w').trans hstore

theorem greet_store (s : Session) (shader : Option String) (happenings : List (Viewer.Happening σ)) (host : Host σ)
    (w : World σ) : ((s.greet shader happenings).on host w).1.2.store = s.store := by
  cases shader with
  | none => rfl
  | some name => exact play_store s name happenings host w

/-- The viewer loads shaders from the store that is listed. -/
def Matched (s : Session) : Prop := s.viewer.programs.recipe.store = s.store

variable {s : Session} {host : Host σ} {w : World σ}

theorem Matched.play (h : s.Matched) (name : String) (happenings : List (Viewer.Happening σ)) :
    ((s.play name happenings).on host w).1.2.Matched := by
  obtain ⟨t, -, hsteps⟩ := play_proceeds s name happenings w.files host w rfl
  unfold Matched
  rw [hsteps.recipe, play_store, h]

theorem Matched.greet (h : s.Matched) (shader : Option String) (happenings : List (Viewer.Happening σ)) :
    ((s.greet shader happenings).on host w).1.2.Matched := by
  cases shader with
  | none => exact h
  | some name => exact h.play name happenings

theorem Matched.take (h : s.Matched) (entry : Entry σ) : ((s.take entry).on host w).1.2.Matched := by
  obtain ⟨t, -, hsteps⟩ := take_proceeds s entry w.files host w rfl
  unfold Matched
  rw [hsteps.recipe, take_store, h]

end Session
end Console
end LiveShader
