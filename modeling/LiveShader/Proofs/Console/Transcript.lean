import LiveShader.Proofs.Console.Playing
import LiveShader.Proofs.Store.Naming
import LiveShader.Proofs.Text.ByteOrder
import LiveShader.Proofs.Window.Custody
/-!
# Proofs.Console.Transcript — all that is shown at the prompt

`Responds` says what a command is answered with, given the session and the world before it.  No answer ends the
conversation: whatever fails to load, the lines are answered one after the other up to the first that leaves, or to the
end (`converse_responds`), and the program ends well (`execute_transcript`).
-/
namespace LiveShader

open Machine

variable {σ : Type}

/-- A render loop that returned an error. -/
def Machine.Entry.isRefusedRun : Machine.Entry → Bool
  | .call ⟨.screen .runLoop, .error _⟩ => true
  | _ => false

namespace Window.Viewer

theorem run_refused (v : Viewer) (happenings : List (Happening σ)) (files : Files.Tree) :
    (v.run happenings).Follows files fun r t _ =>
      ∀ message, r.1 = .error message → t.any Entry.isRefusedRun = true := by
  refine .bind (beginRun_proceeds v files) fun w t f _ => .ask fun started => ?_
  match started with
  | .error _ =>
    refine .ask fun _ => .pure fun _ _ => ?_
    rw [List.any_append]
    simp [Entry.isRefusedRun]
  | .ok () => exact .bind (loop_proceeds w happenings f) fun x u g _ => .ask fun _ => .pure fun _ h => by cases h

end Window.Viewer

namespace Console

open Window (Viewer)

variable {host : Host σ} {s : Session} {w : World σ} {entry : Entry σ} {name line : String}

/-! ## Answers -/

/-- **What a command is answered with.** -/
inductive Responds (host : Host σ) (w : World σ) (s : Session) : PromptCommand → String → Prop
  | blank : Responds host w s .blank ""
  | help : Responds host w s .help (keyBindings ++ "\n")
  | noneListed : s.store.list w.files = .ok [] → Responds host w s .list ("No shaders in " ++ s.store.root ++ ".\n")
  | listed {names : List String} :
    s.store.list w.files = .ok names → names ≠ [] → names.Pairwise (· ≤ ·) →
      Responds host w s .list (String.join (names.map (· ++ "\n")))
  | shown {name : String} :
    ((s.viewer.loadShader name).on host w).1.1 = .ok () → Responds host w s (.load name) ""
  | notFound {name : String} :
    name = "" ∨ w.files.isFile (s.store.shaderPath name) = false →
      Responds host w s (.load name) "Shader not found.\n"
  | failed {name : String} {e : Program.BuildError} :
    name ≠ "" → w.files.isFile (s.store.shaderPath name) = true →
      ((s.viewer.loadShader name).on host w).1.1 = .error e →
        Responds host w s (.load name) ("Failed to load shader '" ++ name ++ "': " ++ e.message ++ "\n")

section

variable (host w)

/-- A load does not find the shader just when the store has no file for it. -/
theorem load_notFound_iff (hmatched : s.Matched) (name : String) :
    (∃ n path, ((s.viewer.loadShader name).on host w).1.1 = .error (.source (.shaderNotFound n path))) ↔
      s.store.contains w.files name = false := by
  have hstore : s.viewer.programs.recipe.store = s.store := hmatched
  simp only [Viewer.loadShader_source_iff]
  unfold Source.Recipe.fragmentSource
  simp only [hstore]
  split
  · next hcontains =>
    simp only [hcontains, Bool.true_eq_false, iff_false, not_exists]
    intro n path
    split <;> simp
  · next hcontains => simp [hcontains]

theorem contains_eq_false_iff {store : Store} {t : Files.Tree} :
    store.contains t name = false ↔ name = "" ∨ t.isFile (store.shaderPath name) = false := by
  by_cases hname : name = "" <;> simp [Store.contains, hname]

theorem loadComplaint_notFound (name n path : String) :
    loadComplaint name (.source (.shaderNotFound n path)) = "Shader not found.\n" := rfl

theorem loadComplaint_other {e : Program.BuildError} (h : ∀ n path, e ≠ .source (.shaderNotFound n path)) :
    loadComplaint name e = "Failed to load shader '" ++ name ++ "': " ++ e.message ++ "\n" := by
  unfold loadComplaint
  split
  · next n path => exact absurd rfl (h n path)
  · rfl

/-- **A complaint is what a failed load is answered with.** -/
theorem loadComplaint_responds (hmatched : s.Matched) {e : Program.BuildError}
    (hload : ((s.viewer.loadShader name).on host w).1.1 = .error e) :
    Responds host w s (.load name) (loadComplaint name e) := by
  have hnotFound := load_notFound_iff host w hmatched name
  by_cases hfound : s.store.contains w.files name = false
  · obtain ⟨n, path, he⟩ := hnotFound.2 hfound
    obtain rfl := Except.error.inj (hload.symm.trans he)
    rw [loadComplaint_notFound]
    exact .notFound (contains_eq_false_iff.1 hfound)
  · have hother : ∀ n path, e ≠ .source (.shaderNotFound n path) := by
      rintro n path rfl
      exact hfound (hnotFound.1 ⟨n, path, hload⟩)
    rw [contains_eq_false_iff, not_or, Bool.not_eq_false] at hfound
    rw [loadComplaint_other hother]
    exact .failed hfound.1 hfound.2 hload

/-- **Playing a shader is answered as it should be**, unless the render loop is refused. -/
theorem play_responds (hmatched : s.Matched) (happenings : List (Viewer.Happening σ))
    (hruns : ((s.play name happenings).on host w).2.trace.any Entry.isRefusedRun = false) :
    ∃ shown, ((s.play name happenings).on host w).1.1 = .ok shown ∧ Responds host w s (.load name) shown := by
  unfold Session.play at hruns ⊢
  rw [Run.on_bind] at hruns ⊢
  rcases hload : (s.viewer.loadShader name).on host w with ⟨⟨result, v⟩, w'⟩
  rw [hload] at hruns
  cases result with
  | error e => exact ⟨loadComplaint name e, rfl, loadComplaint_responds host w hmatched (by rw [hload])⟩
  | ok _ =>
    rcases hrun : (v.run happenings).on host w' with ⟨⟨ran, v'⟩, w''⟩
    simp only [Run.on_bind, hrun] at hruns ⊢
    cases ran with
    | ok _ => exact ⟨"", rfl, .shown (by rw [hload])⟩
    | error message =>
      have hany : w''.trace.any Entry.isRefusedRun = false := hruns
      obtain ⟨t, htrace, hrefused⟩ := v.run_refused happenings w'.files host w' rfl
      rw [hrun] at htrace hrefused
      rw [show w''.trace = w'.trace ++ t from htrace, List.any_append, hrefused message rfl, Bool.or_true] at hany
      cases hany

/-- **A listing is what the command to list is answered with.** -/
theorem listing_responds {names : List String} (hnames : s.store.list w.files = .ok names) :
    ∃ shown, listing s.store w.files = .ok shown ∧ Responds host w s .list shown := by
  unfold listing
  rw [hnames]
  cases names with
  | nil => exact ⟨_, rfl, .noneListed hnames⟩
  | cons first rest =>
    refine ⟨_, rfl, .listed hnames (List.cons_ne_nil first rest) ?_⟩
    rw [Store.list_eq] at hnames
    split at hnames
    · cases hnames
    · rw [← Except.ok.inj hnames]
      exact Store.sorted_namesBelow _ _

/-- **Every command but leaving is answered as it should be**, unless the store cannot be listed or the render loop is
refused. -/
theorem answer_responds (hmatched : s.Matched) {command : PromptCommand} (hstays : command ≠ .quit)
    (hlist : command = .list → ∃ names, s.store.list w.files = .ok names) (happenings : List (Viewer.Happening σ))
    (hruns : ((s.answer happenings command).on host w).2.trace.any Entry.isRefusedRun = false) :
    ∃ shown, ((s.answer happenings command).on host w).1.1 = .ok shown ∧ Responds host w s command shown := by
  cases command with
  | quit => exact absurd rfl hstays
  | blank => exact ⟨_, rfl, .blank⟩
  | help => exact ⟨_, rfl, .help⟩
  | load name => exact play_responds host w hmatched happenings hruns
  | list =>
    obtain ⟨names, hnames⟩ := hlist rfl
    exact listing_responds host w hnames

end

/-! ## Lines -/

/-- What leaves the prompt. -/
def leaves (line : String) : Bool := Text.trim line == "quit" || Text.trim line == "exit"

theorem parse_eq_quit_iff : PromptCommand.parse (some line) = .quit ↔ leaves line = true := by
  unfold PromptCommand.parse leaves
  simp only [Bool.or_eq_true, beq_iff_eq]
  grind

theorem take_left (hline : entry.line = .ok line) (hleaves : leaves line = true) :
    (s.take entry).on host w = ((.ended none, s), w) := by
  unfold Session.take
  rw [hline]
  simp only [parse_eq_quit_iff.2 hleaves]
  rfl

/-- What an answer makes of the line. -/
def Session.Turn.ofAnswer : Except Report String → Session.Turn
  | .error report => .ended (some report)
  | .ok shown => .answered shown

theorem stays_of_leaves (hstays : leaves line = false) : PromptCommand.parse (some line) ≠ .quit := by
  rw [ne_eq, parse_eq_quit_iff, hstays]
  exact Bool.false_ne_true

theorem take_stays {answered : Except Report String} {s' : Session} {w' : World σ} (hline : entry.line = .ok line)
    (hstays : leaves line = false)
    (hanswer : (s.answer entry.happenings (PromptCommand.parse (some line))).on host w = ((answered, s'), w')) :
    (s.take entry).on host w = ((.ofAnswer answered, s'), w') := by
  unfold Session.take
  rw [hline]
  simp only
  split
  · next hquit => exact absurd hquit (stays_of_leaves hstays)
  · rw [Run.on_bind, hanswer]
    cases answered <;> rfl

variable (host w) in
/-- **A line that does not leave is answered**, and the next one is read after it. -/
theorem take_responds (hmatched : s.Matched) (hline : entry.line = .ok line) (hstays : leaves line = false)
    (hlist : PromptCommand.parse (some line) = .list → ∃ names, s.store.list w.files = .ok names)
    (hruns : ((s.take entry).on host w).2.trace.any Entry.isRefusedRun = false) :
    ∃ shown, ((s.take entry).on host w).1.1 = .answered shown ∧
      Responds host w s (PromptCommand.parse (some line)) shown := by
  have hanswered := answer_responds host w hmatched (stays_of_leaves hstays) hlist entry.happenings
  rcases hanswer : (s.answer entry.happenings (PromptCommand.parse (some line))).on host w with ⟨⟨answered, s'⟩, w'⟩
  rw [take_stays hline hstays hanswer] at hruns ⊢
  rw [hanswer] at hanswered
  obtain ⟨shown, rfl, hresponds⟩ := hanswered hruns
  exact ⟨shown, rfl, hresponds⟩

/-! ## The conversation -/

/-- **How the lines are answered**, each after what came before it; the end of the input leaves as well. -/
inductive Converses (host : Host σ) : Session → World σ → List (Entry σ) → List String → Prop
  | ended (s : Session) (w : World σ) : Converses host s w [] [""]
  | left {s : Session} {w : World σ} {entry : Entry σ} {rest : List (Entry σ)} {line : String} :
    entry.line = .ok line → leaves line = true → Converses host s w (entry :: rest) [""]
  | answered {s : Session} {w : World σ} {entry : Entry σ} {rest : List (Entry σ)} {line response : String}
      {responses : List String} :
    entry.line = .ok line → leaves line = false → Responds host w s (PromptCommand.parse (some line)) response →
      Converses host ((s.take entry).on host w).1.2 ((s.take entry).on host w).2 rest responses →
        Converses host s w (entry :: rest) (response :: responses)

/-- The store can be listed whenever it is to be. -/
def Listable (host : Host σ) : Session → World σ → List (Entry σ) → Prop
  | _, _, [] => True
  | s, w, entry :: rest =>
    match entry.line with
    | .error _ => True
    | .ok line => leaves line = true ∨
      (PromptCommand.parse (some line) = .list → (s.store.list w.files).isOk = true) ∧
        Listable host ((s.take entry).on host w).1.2 ((s.take entry).on host w).2 rest

instance Listable.decidable (host : Host σ) : ∀ (s : Session) (w : World σ) (entries : List (Entry σ)),
    Decidable (Listable host s w entries)
  | _, _, [] => isTrue trivial
  | s, w, entry :: rest =>
    match h : entry.line with
    | .error _ => isTrue (by simp [Listable, h])
    | .ok line =>
      have := Listable.decidable host ((s.take entry).on host w).1.2 ((s.take entry).on host w).2 rest
      decidable_of_iff (leaves line = true ∨
        (PromptCommand.parse (some line) = .list → (s.store.list w.files).isOk = true) ∧
          Listable host ((s.take entry).on host w).1.2 ((s.take entry).on host w).2 rest) (by simp [Listable, h])

theorem Listable.cons {rest : List (Entry σ)} (h : Listable host s w (entry :: rest)) (hline : entry.line = .ok line)
    (hstays : leaves line = false) :
    (PromptCommand.parse (some line) = .list → ∃ names, s.store.list w.files = .ok names) ∧
      Listable host ((s.take entry).on host w).1.2 ((s.take entry).on host w).2 rest := by
  simp only [Listable, hline, hstays, Bool.false_eq_true, false_or] at h
  refine ⟨fun hlist => ?_, h.2⟩
  cases hnames : s.store.list w.files with
  | ok names => exact ⟨names, rfl⟩
  | error e =>
    have hok := h.1 hlist
    rw [hnames] at hok
    cases hok

/-- As many lines are answered as there are up to the first that leaves, or to the end. -/
theorem Converses.length {entries : List (Entry σ)} {lines responses : List String}
    (h : Converses host s w entries responses) (hlines : entries.map (·.line) = lines.map .ok) :
    responses.length = (lines.takeWhile (!leaves ·)).length + 1 := by
  induction h generalizing lines with
  | ended s w =>
    obtain rfl : lines = [] := by simpa using hlines
    rfl
  | left hline hleaves =>
    cases lines with
    | nil => simp at hlines
    | cons l ls =>
      obtain ⟨hl, -⟩ := List.cons.inj hlines
      obtain rfl := Except.ok.inj (hline.symm.trans hl)
      simp [hleaves]
  | answered hline hstays _ _ ih =>
    cases lines with
    | nil => simp at hlines
    | cons l ls =>
      obtain ⟨hl, hls⟩ := List.cons.inj hlines
      obtain rfl := Except.ok.inj (hline.symm.trans hl)
      simp [hstays, ih hls]

/-- What was not refused at the end was not refused before. -/
theorem unrefused_before {α : Type} {p : Run σ α} {v : Viewer} {view : α → Viewer} (hp : Viewer.Proceeds [] v view p)
    (hruns : (p.on host w).2.trace.any Entry.isRefusedRun = false) : w.trace.any Entry.isRefusedRun = false := by
  obtain ⟨t, htrace, -⟩ := hp w.files host w rfl
  rw [htrace, List.any_append, Bool.or_eq_false_iff] at hruns
  exact hruns.1

/-- **No answer ends the conversation**: every line is answered up to the first that leaves, or to the end. -/
theorem converse_responds : ∀ (entries : List (Entry σ)) (s : Session) (w : World σ), s.Matched →
    (∀ entry ∈ entries, ∃ line, entry.line = .ok line) → Listable host s w entries →
    ((s.converse entries).on host w).2.trace.any Entry.isRefusedRun = false →
      ∃ responses, Converses host s w entries responses ∧
        ((s.converse entries).on host w).1.1 = (String.join (responses.map (promptMark ++ ·)), none)
  | [], s, w, _, _, _, _ => ⟨[""], .ended s w, by simp [Session.converse]; rfl⟩
  | entry :: rest, s, w, hmatched, hread, hlistable, hruns => by
    obtain ⟨line, hline⟩ := hread entry List.mem_cons_self
    unfold Session.converse at hruns ⊢
    rw [Run.on_bind] at hruns ⊢
    cases hleaves : leaves line with
    | true =>
      rw [take_left hline hleaves] at hruns ⊢
      exact ⟨[""], .left hline hleaves, by simp; rfl⟩
    | false =>
      obtain ⟨hlist, hrest⟩ := hlistable.cons hline hleaves
      have hanswered := take_responds host w hmatched hline hleaves hlist
      have hstill : ((s.take entry).on host w).1.2.Matched := hmatched.take entry
      rcases htake : (s.take entry).on host w with ⟨⟨turn, s'⟩, w'⟩
      rw [htake] at hruns hanswered hrest hstill
      cases turn with
      | ended failure =>
        obtain ⟨shown, hended, -⟩ := hanswered hruns
        cases hended
      | answered shown =>
        have hmore : ((s'.converse rest).on host w').2.trace.any Entry.isRefusedRun = false := hruns
        obtain ⟨_, hshown, hresponds⟩ := hanswered (unrefused_before (Session.converse_proceeds s' rest) hmore)
        obtain rfl := Session.Turn.answered.inj hshown
        obtain ⟨responses, hconverses, hjoined⟩ :=
          converse_responds rest s' w' hstill (fun e he => hread e (List.mem_cons_of_mem _ he)) hrest hmore
        refine ⟨shown :: responses, .answered hline hleaves hresponds (by rw [htake]; exact hconverses), ?_⟩
        show ((s'.converse rest >>= fun r => pure ((promptMark ++ shown ++ r.1.1, r.1.2), r.2)).on host w').1.1 = _
        rw [Run.on_bind, hjoined]
        rw [List.map_cons, String.join_cons]
        rfl

/-! ## The program -/

/-- **How the shader that was asked for is answered.** -/
inductive Greets (host : Host σ) (w : World σ) (s : Session) : Option String → String → Prop
  | unasked : Greets host w s none ""
  | asked {name response : String} : Responds host w s (.load name) response → Greets host w s (some name) response

variable (host w) in
theorem greet_responds (hmatched : s.Matched) (shader : Option String) (happenings : List (Viewer.Happening σ))
    (hruns : ((s.greet shader happenings).on host w).2.trace.any Entry.isRefusedRun = false) :
    ∃ shown, ((s.greet shader happenings).on host w).1.1 = .ok shown ∧ Greets host w s shader shown := by
  cases shader with
  | none => exact ⟨"", rfl, .unasked⟩
  | some name =>
    obtain ⟨shown, hshown, hresponds⟩ := play_responds host w hmatched happenings hruns
    exact ⟨shown, hshown, .asked hresponds⟩

variable (host w) in
theorem follow_responds (hmatched : s.Matched) {shader : Option String} {script : Script σ}
    {greeted : Except Report String} {begun : Session} {later : World σ}
    (hgreet : (s.greet shader script.atOnce).on host w = ((greeted, begun), later))
    (hread : ∀ entry ∈ script.entries, ∃ line, entry.line = .ok line)
    (hlistable : Listable host begun later script.entries)
    (hruns : ((s.follow shader script).on host w).2.trace.any Entry.isRefusedRun = false) :
    ∃ welcome responses, Greets host w s shader welcome ∧ Converses host begun later script.entries responses ∧
      ((s.follow shader script).on host w).1.1 = (welcome ++ String.join (responses.map (promptMark ++ ·)), none) ∧
      ((s.follow shader script).on host w).1.2.store = s.store := by
  have hanswered := greet_responds host w hmatched shader script.atOnce
  have hstill : ((s.greet shader script.atOnce).on host w).1.2.Matched := hmatched.greet shader script.atOnce
  have hstore := s.greet_store shader script.atOnce host w
  unfold Session.follow at hruns ⊢
  rw [Run.on_bind] at hruns ⊢
  rw [hgreet] at hruns hanswered hstill hstore ⊢
  cases greeted with
  | error report =>
    obtain ⟨_, herror, -⟩ := hanswered hruns
    cases herror
  | ok shown =>
    have hmore : ((begun.converse script.entries).on host later).2.trace.any Entry.isRefusedRun = false := hruns
    obtain ⟨welcome, hshown, hgreets⟩ := hanswered (unrefused_before (begun.converse_proceeds script.entries) hmore)
    obtain rfl := Except.ok.inj hshown
    obtain ⟨responses, hconverses, hjoined⟩ := converse_responds script.entries begun later hstill hread hlistable hmore
    refine ⟨shown, responses, hgreets, hconverses, ?_, ?_⟩
    · show ((begun.converse script.entries >>= fun r => pure ((shown ++ r.1.1, r.1.2), r.2)).on host later).1.1 = _
      rw [Run.on_bind, hjoined]
      rfl
    · exact (begun.converse_store host script.entries later).trans hstore

/-- A window that is opened is shown and closed. -/
theorem interactive_on {settings : Config.Settings} {shader : Option String} {script : Script σ} {entered : World σ}
    {session ended : Session} {shown : String} {failure : Option Report} {w' : World σ}
    (hopened : (Session.opened settings).on host w = (.ok session, entered))
    (hfollow : (session.follow shader script).on host entered = (((shown, failure), ended), w')) :
    (interactive settings shader script).on host w =
      (⟨ended.banner ++ shown, .ofFailure failure⟩, (ended.viewer.close.on host w').2) := by
  unfold interactive
  rw [Run.on_bind, hopened]
  simp only [Run.on_bind, hfollow]
  rfl

/-- **All that the program shows.**  A window is opened, input that is text is read, no render loop is refused and the
store can be listed whenever it is to be.  Then the program ends well, whatever the driver makes of shaders and
programs: it shows the welcome, the answer to the shader that was asked for, and behind one prompt mark each the answers
to the lines up to the first that leaves, or to all of them and the end of the input. -/
theorem execute_transcript (env : Environment) (args : List String) (script : Script σ) (host : Host σ) (state : σ)
    (files : Files.Tree) {entered later : World σ} {c : CommandLine} {settings : Config.Settings}
    {session begun : Session} {greeted : Except Report String} {input : ByteArray} {stdin : String}
    (hparse : CommandLine.parse args env.config = .ok c) (hcommand : c.command = none)
    (hsettings : settingsFor files env.ownConfig? c.arguments = .ok settings)
    (hopened : (Session.opened settings).on host { host := state, files } = (.ok session, entered))
    (hgreet : (session.greet c.arguments.shader script.atOnce).on host entered = ((greeted, begun), later))
    (hinput : String.fromUTF8? input = some stdin)
    (hlines : script.entries.map (·.line) = (entriesOf input : List (Entry σ)).map (·.line))
    (hlistable : Listable host begun later script.entries)
    (hruns : ((execute env args script).on host { host := state, files }).2.trace.any Entry.isRefusedRun = false) :
    ∃ welcome responses,
      Greets host entered session c.arguments.shader welcome ∧
      Converses host begun later script.entries responses ∧
      responses.length = (((Text.lines stdin.toList).map String.ofList).takeWhile (!leaves ·)).length + 1 ∧
      ((execute env args script).on host { host := state, files }).1 =
        ⟨welcomeBanner settings.store ++ "\n" ++ welcome ++ String.join (responses.map (promptMark ++ ·)), .done⟩ := by
  have hlines : script.entries.map (·.line) = ((Text.lines stdin.toList).map String.ofList).map .ok := by
    rw [hlines, entriesOf, hinput]
    simp [entriesOfText, Entry.ofLine]
  have hread : ∀ entry ∈ script.entries, ∃ line, entry.line = .ok line := by
    intro entry hentry
    have hline : entry.line ∈ script.entries.map (·.line) := List.mem_map_of_mem hentry
    rw [hlines] at hline
    obtain ⟨line, -, hline⟩ := List.mem_map.1 hline
    exact ⟨line, hline.symm⟩
  obtain ⟨-, -, hsession, -⟩ := Session.opened_settings settings files host { host := state, files } rfl
  rw [hopened] at hsession
  obtain ⟨hstore, version, -, hrecipe⟩ := hsession session rfl
  have hmatched : session.Matched := by
    unfold Session.Matched
    rw [hrecipe, hstore]
    rfl
  have hperform : (execute env args script).on host { host := state, files } =
      (interactive settings c.arguments.shader script).on host { host := state, files } := by
    rw [execute_performs (w := { host := state, files }) hparse hsettings, CommandLine.perform, hcommand]
  have hfollowed := follow_responds host entered hmatched hgreet hread hlistable
  rcases hfollow : (session.follow c.arguments.shader script).on host entered with ⟨⟨⟨shown, failure⟩, ended⟩, w⟩
  rw [hperform, interactive_on hopened hfollow] at hruns ⊢
  rw [hfollow] at hfollowed
  obtain ⟨t, hclosed, -⟩ := ended.viewer.close_calls w.files host w rfl
  rw [hclosed, List.any_append, Bool.or_eq_false_iff] at hruns
  obtain ⟨welcome, responses, hgreets, hconverses, hshown, hkept⟩ := hfollowed hruns.1
  obtain ⟨rfl, rfl⟩ := Prod.mk.inj hshown
  refine ⟨welcome, responses, hgreets, hconverses, hconverses.length hlines, ?_⟩
  have hbanner : ended.banner = welcomeBanner settings.store ++ "\n" := by
    rw [Session.banner, show ended.store = session.store from hkept, hstore]
  rw [hbanner, ← String.append_assoc]
  rfl

/-- A name, every other command, and a line behind the one that leaves. -/
def mixedLines : String := "a\nlist\na\nhelp\n\n quit \na"

/-- The store is gone after the first run. -/
def mixedEntries : List (Entry Simulator.State) :=
  ⟨.ok "a", [.change { files := fun _ => { top := .dir [], workDir := [] } }]⟩ ::
    (entriesOf mixedLines.toUTF8).tail

/-- A driver that does not compile the first shader. -/
def refusing : Simulator.State := Simulator.State.arm {} .compileFragment 1

def oneShader : Files.Tree := { top := .dir [("s", .dir [("a.frag", .file ByteArray.empty)])], workDir := [] }

@[irreducible] def refusedWindow : Except Report Session × World Simulator.State :=
  (Session.opened { storeRoot := "s" }).on Simulator.host { host := refusing, files := oneShader }

@[irreducible] def refusedRun : Outcome × World Simulator.State :=
  (execute {} ["--store", "s", "a"] { entries := mixedEntries }).on Simulator.host
    { host := refusing, files := oneShader }

/-- Whether the store can be listed whenever it is to be, in a window. -/
def listableIn (window : Except Report Session × World Simulator.State) : Bool :=
  match window with
  | (.error _, _) => false
  | (.ok session, entered) =>
    let begun := (session.greet (some "a") []).on Simulator.host entered
    decide (Listable Simulator.host begun.1.2 begun.2 mixedEntries)

theorem execute_transcript_refused : refusedRun.1.ending = .done ∧
    ∃ session entered greeted begun later, refusedWindow = (.ok session, entered) ∧
      (session.greet (some "a") []).on Simulator.host entered = ((greeted, begun), later) ∧
      ∃ welcome responses,
        Greets Simulator.host entered session (some "a") welcome ∧
        Converses Simulator.host begun later mixedEntries responses ∧ responses.length = 6 ∧
        refusedRun.1.shown =
          welcomeBanner { root := "s" } ++ "\n" ++ welcome ++ String.join (responses.map (promptMark ++ ·)) := by
  have hparse : CommandLine.parse ["--store", "s", "a"] none =
      .ok ⟨none, { store := some "s", shader := some "a" }⟩ := by decide +kernel
  have hsettings : settingsFor oneShader none { store := some "s", shader := some "a" } = .ok { storeRoot := "s" } := by
    decide +kernel
  have hlistable : listableIn refusedWindow = true := by decide +kernel
  have hruns : refusedRun.2.trace.any Entry.isRefusedRun = false := by decide +kernel
  have hending : refusedRun.1.ending = .done := by decide +kernel
  have hlines : mixedEntries.map (·.line) =
      (entriesOf mixedLines.toUTF8 : List (Entry Simulator.State)).map (·.line) := by decide +kernel
  have hanswered : (((Text.lines mixedLines.toList).map String.ofList).takeWhile (!leaves ·)).length = 5 := by
    decide +kernel
  refine ⟨hending, ?_⟩
  rcases hwindow : refusedWindow with ⟨_ | session, entered⟩
  · rw [hwindow] at hlistable
    cases hlistable
  · rw [hwindow, listableIn, decide_eq_true_eq] at hlistable
    have hopened : (Session.opened { storeRoot := "s" }).on Simulator.host { host := refusing, files := oneShader } =
        (.ok session, entered) := by rw [← hwindow, refusedWindow]
    rcases hgreet : (session.greet (some "a") []).on Simulator.host entered with ⟨⟨greeted, begun⟩, later⟩
    rw [hgreet] at hlistable
    rw [refusedRun] at hruns ⊢
    obtain ⟨welcome, responses, hgreets, hconverses, hlength, htold⟩ := execute_transcript {} _
      { entries := mixedEntries } Simulator.host refusing oneShader hparse rfl hsettings hopened hgreet
      (Text.fromUTF8?_toUTF8 mixedLines) hlines hlistable hruns
    refine ⟨session, entered, greeted, begun, later, rfl, hgreet, welcome, responses, hgreets, hconverses, ?_, ?_⟩
    · rw [hlength, hanswered]
    · rw [htold]
      rfl

/-- **A name without characters is never found**, also where the store has a file for it. -/
theorem execute_emptyName :
    let files : Files.Tree :=
      { top := .dir [("res", .dir [("shaders", .dir [(".frag", .file ByteArray.empty)])])], workDir := [] }
    files.isFile (Store.shaderPath {} "") = true ∧
      ((execute {} [""] {}).on Simulator.host { host := {}, files }).1 =
        ⟨welcomeBanner {} ++ "\n" ++ "Shader not found.\n" ++ promptMark, .done⟩ := by
  decide +kernel

end Console
end LiveShader
