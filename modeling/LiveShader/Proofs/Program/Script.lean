import LiveShader.Program.Slot
import LiveShader.Proofs.Machine.Follows
import LiveShader.Proofs.Machine.Ledger
/-!
# Proofs.Program.Script — every way in which building and exchanging programs can go

A script relates the result of an operation to the calls it makes: one constructor for each way the driver can
answer.  `perform_follows` says that the operations of a slot keep to their scripts on every host, so whatever is to
be known about them is a case distinction on scripts.
-/
namespace LiveShader
namespace Program

open Machine Source

variable {σ : Type}

/-! ## Building -/

inductive Compiles (stage : Stage) (source : String) : Except BuildError ShaderId → Trace → Prop
  | refused (message : String) :
    Compiles stage source (.error (.create (.shader stage) message)) [said (.createShader stage) (.error message)]
  | compiled (id : ShaderId) :
    Compiles stage source (.ok id) [said (.createShader stage) (.ok id), said (.compileShader id source) true]
  | rejected (id : ShaderId) (log : String) :
    Compiles stage source (.error (.compile stage log))
      [said (.createShader stage) (.ok id), said (.compileShader id source) false, said (.shaderLog id) log,
        said (.deleteShader id) ()]

inductive Linking (p : ProgramId) : Except BuildError Unit → Trace → Prop
  | linked : Linking p (.ok ()) [said (.linkProgram p) true]
  | rejected (log : String) : Linking p (.error (.link log)) [said (.linkProgram p) false, said (.programLog p) log]

inductive Links (vertex fragment : ShaderId) : Except BuildError Linked → Trace → Prop
  | refused (message : String) :
    Links vertex fragment (.error (.create .program message))
      [said .createProgram (.error message), said (.deleteShader fragment) (), said (.deleteShader vertex) ()]
  | linked (p : ProgramId) :
    Links vertex fragment (.ok ⟨p, vertex, fragment⟩)
      [said .createProgram (.ok p), said (.attachShader p vertex) (), said (.attachShader p fragment) (),
        said (.linkProgram p) true]
  | rejected (p : ProgramId) (log : String) :
    Links vertex fragment (.error (.link log))
      [said .createProgram (.ok p), said (.attachShader p vertex) (), said (.attachShader p fragment) (),
        said (.linkProgram p) false, said (.programLog p) log, said (.deleteProgram p) (),
        said (.deleteShader fragment) (), said (.deleteShader vertex) ()]

inductive Builds (vertexText fragmentText : String) : Except BuildError Linked → Trace → Prop
  | noVertex {e : BuildError} {t : Trace} :
    Compiles .vertex vertexText (.error e) t → Builds vertexText fragmentText (.error e) t
  | noFragment {v : ShaderId} {e : BuildError} {t u : Trace} :
    Compiles .vertex vertexText (.ok v) t → Compiles .fragment fragmentText (.error e) u →
      Builds vertexText fragmentText (.error e) (t ++ (u ++ [said (.deleteShader v) ()]))
  | staged {v f : ShaderId} {r : Except BuildError Linked} {t u w : Trace} :
    Compiles .vertex vertexText (.ok v) t → Compiles .fragment fragmentText (.ok f) u → Links v f r w →
      Builds vertexText fragmentText r (t ++ (u ++ w))

theorem compileStage_calls (stage : Stage) (source : String) :
    (compileStage stage source : Run σ _).Calls (Compiles stage source) := by
  intro files
  refine .ask fun created => ?_
  match created with
  | .error message => exact .pure ⟨.refused message, rfl⟩
  | .ok id =>
    refine .ask fun status => ?_
    match status with
    | true => exact .pure ⟨.compiled id, rfl⟩
    | false => exact .ask fun log => .ask fun _ => .pure ⟨.rejected id log, rfl⟩

theorem linkStages_calls (p : ProgramId) : (linkStages p : Run σ _).Calls (Linking p) := by
  intro files
  refine .ask fun status => ?_
  match status with
  | true => exact .pure ⟨.linked, rfl⟩
  | false => exact .ask fun log => .pure ⟨.rejected log, rfl⟩

theorem linkNew_calls (vertex fragment : ShaderId) :
    (linkNew vertex fragment : Run σ _).Calls (Links vertex fragment) := by
  intro files
  refine .ask fun created => ?_
  match created with
  | .error message => exact .ask fun _ => .ask fun _ => .pure ⟨.refused message, rfl⟩
  | .ok p =>
    refine .ask fun _ => .ask fun _ => .calls (linkStages_calls p) fun r t h => ?_
    cases h with
    | linked => exact .pure ⟨.linked p, rfl⟩
    | rejected log => exact .ask fun _ => .ask fun _ => .ask fun _ => .pure ⟨.rejected p log, rfl⟩

theorem buildFrom_calls (vertexText fragmentText : String) :
    (buildFrom vertexText fragmentText : Run σ _).Calls (Builds vertexText fragmentText) := by
  intro files
  refine .calls (compileStage_calls .vertex vertexText) fun r t hv => ?_
  match r with
  | .error e => exact .pure ⟨by rw [List.append_nil]; exact .noVertex hv, rfl⟩
  | .ok v =>
    refine .calls (compileStage_calls .fragment fragmentText) fun r u hf => ?_
    match r with
    | .error e => exact .ask fun _ => .pure ⟨.noFragment hv hf, rfl⟩
    | .ok f => exact (linkNew_calls v f files).mono (fun r w g h => ⟨.staged hv hf h.1, h.2⟩)

/-- A script for an assembled source, when there is one. -/
inductive FromSource {α : Type} (recipe : Recipe) (files : Files.Tree) (name : String)
    (script : String → Except BuildError α → Trace → Prop) : Except BuildError α → Trace → Prop
  | unread {e : SourceError} :
    recipe.fragmentSource files name = .error e → FromSource recipe files name script (.error (.source e)) []
  | read {text : String} {r : Except BuildError α} {t : Trace} :
    recipe.fragmentSource files name = .ok text → script text r t → FromSource recipe files name script r t

theorem build_follows (recipe : Recipe) (files : Files.Tree) (name : String) :
    (build recipe name : Run σ _).Follows files fun r t f =>
      FromSource recipe files name (Builds (vertexSource recipe.version)) r t ∧ f = (recipe.assemble files name).2 := by
  refine .withFiles ?_
  rw [Recipe.assemble_fst]
  cases h : recipe.fragmentSource files name with
  | error e => exact .pure ⟨.unread h, rfl⟩
  | ok text => exact (buildFrom_calls _ text _).mono (fun r t f hb => ⟨.read h hb.1, hb.2⟩)

theorem buildFragment_follows (recipe : Recipe) (files : Files.Tree) (name : String) :
    (buildFragment recipe name : Run σ _).Follows files fun r t f =>
      FromSource recipe files name (Compiles .fragment) r t ∧ f = (recipe.assemble files name).2 := by
  refine .withFiles ?_
  rw [Recipe.assemble_fst]
  cases h : recipe.fragmentSource files name with
  | error e => exact .pure ⟨.unread h, rfl⟩
  | ok text => exact (compileStage_calls .fragment text _).mono (fun r t f hb => ⟨.read h hb.1, hb.2⟩)

/-! ## The operations of a slot -/

def releasing (l : Linked) : Trace :=
  [said (.deleteProgram l.program) (), said (.deleteShader l.vertex) (), said (.deleteShader l.fragment) ()]

theorem release_calls (l : Linked) : (l.release : Run σ Unit).Calls fun _ t => t = releasing l :=
  fun _ => .ask fun _ => .ask fun _ => .ask_last fun _ => ⟨rfl, rfl⟩

namespace Slot

def tearing (s : Slot) : Trace :=
  match s.active with
  | none => []
  | some l => said (.useProgram none) () :: releasing l

inductive Loads (s : Slot) (files : Files.Tree) (name : String) : Except BuildError Unit × Slot → Trace → Prop
  | failed {e : BuildError} {t : Trace} :
    FromSource s.recipe files name (Builds (vertexSource s.recipe.version)) (.error e) t →
      Loads s files name (.error e, { s with active := none, shaderName := some name }) (s.tearing ++ t)
  | loaded {l : Linked} {t : Trace} :
    FromSource s.recipe files name (Builds (vertexSource s.recipe.version)) (.ok l) t →
      Loads s files name
        (.ok (), { s with active := some l, shaderName := some name, generation := s.generation + 1 }) (s.tearing ++ t)

inductive Exchanges (l : Linked) (fragment : ShaderId) : Except BuildError Linked → Trace → Prop
  | linked :
    Exchanges l fragment (.ok { l with fragment })
      [said (.detachShader l.program l.fragment) (), said (.deleteShader l.fragment) (),
        said (.attachShader l.program fragment) (), said (.linkProgram l.program) true]
  | rejected (log : String) :
    Exchanges l fragment (.error (.link log))
      ([said (.detachShader l.program l.fragment) (), said (.deleteShader l.fragment) (),
        said (.attachShader l.program fragment) (), said (.linkProgram l.program) false,
        said (.programLog l.program) log] ++ releasing { l with fragment })

inductive Swaps (s : Slot) (files : Files.Tree) (name : String) (l : Linked) :
    Except BuildError Unit × Slot → Trace → Prop
  | unbuilt {e : BuildError} {t : Trace} :
    FromSource s.recipe files name (Compiles .fragment) (.error e) t →
      Swaps s files name l (.error e, { s with active := none }) (t ++ releasing l)
  | unlinked {f : ShaderId} {e : BuildError} {t u : Trace} :
    FromSource s.recipe files name (Compiles .fragment) (.ok f) t → Exchanges l f (.error e) u →
      Swaps s files name l (.error e, { s with active := none }) (t ++ u)
  | swapped {f : ShaderId} {l' : Linked} {t u : Trace} :
    FromSource s.recipe files name (Compiles .fragment) (.ok f) t → Exchanges l f (.ok l') u →
      Swaps s files name l (.ok (), { s with active := some l', generation := s.generation + 1 }) (t ++ u)

theorem teardown_calls (s : Slot) :
    (s.teardown : Run σ Slot).Calls fun s' t => s' = { s with active := none } ∧ t = s.tearing := by
  intro files
  unfold teardown tearing
  cases h : s.active with
  | none => exact .pure ⟨⟨by rw [← h], rfl⟩, rfl⟩
  | some l => exact .ask fun _ => .calls (release_calls l) fun _ t ht => .pure ⟨⟨rfl, by rw [ht, List.append_nil]⟩, rfl⟩

theorem load_follows (s : Slot) (files : Files.Tree) (name : String) :
    (s.load name : Run σ _).Follows files fun r t f =>
      Loads s files name r t ∧ f = (s.recipe.assemble files name).2 := by
  refine .calls (teardown_calls s) fun s' t h => ?_
  obtain ⟨rfl, rfl⟩ := h
  refine .bind (build_follows s.recipe files name) fun r t f h => ?_
  obtain ⟨hb, rfl⟩ := h
  match r with
  | .ok l => exact .pure ⟨by rw [List.append_nil]; exact .loaded hb, rfl⟩
  | .error e => exact .pure ⟨by rw [List.append_nil]; exact .failed hb, rfl⟩

theorem exchangeFragment_calls (l : Linked) (fragment : ShaderId) :
    (exchangeFragment l fragment : Run σ _).Calls (Exchanges l fragment) := by
  intro files
  refine .ask fun _ => .ask fun _ => .ask fun _ => .calls (linkStages_calls l.program) fun r t h => ?_
  cases h with
  | linked => exact .pure ⟨.linked, rfl⟩
  | rejected log =>
    refine .calls (release_calls { l with fragment }) fun _ t h => ?_
    subst h
    exact .pure ⟨.rejected log, rfl⟩

theorem hotSwap_follows (s : Slot) (files : Files.Tree) (name : String) (l : Linked) (hn : s.shaderName = some name)
    (hl : s.active = some l) :
    (s.hotSwap : Run σ _).Follows files fun r t f =>
      Swaps s files name l r t ∧ f = (s.recipe.assemble files name).2 := by
  obtain ⟨recipe, active, shaderName, generation⟩ := s
  obtain rfl : shaderName = some name := hn
  obtain rfl : active = some l := hl
  refine .bind (buildFragment_follows recipe files name) fun r t f h => ?_
  obtain ⟨hb, rfl⟩ := h
  match r with
  | .error e =>
    refine .calls (release_calls l) fun _ u h => ?_
    subst h
    exact .pure ⟨by rw [List.append_nil]; exact .unbuilt hb, rfl⟩
  | .ok fragment =>
    refine .calls (exchangeFragment_calls l fragment) fun r u he => ?_
    match r with
    | .error e => exact .pure ⟨by rw [List.append_nil]; exact .unlinked hb he, rfl⟩
    | .ok l' => exact .pure ⟨by rw [List.append_nil]; exact .swapped hb he, rfl⟩

/-! ## Any operation -/

/-- What can be done with a slot. -/
inductive Operation where
  | load (name : String)
  | reload
  | hotSwap
  | teardown
  | bind
  | unbind
deriving DecidableEq, Repr

/-- Does an operation; those that cannot fail succeed. -/
def perform (s : Slot) : Operation → Run σ (Except BuildError Unit × Slot)
  | .load name => s.load name
  | .reload => s.reload
  | .hotSwap => s.hotSwap
  | .teardown => do return (.ok (), ← s.teardown)
  | .bind => do
    let _ ← s.bind
    return (.ok (), s)
  | .unbind => do
    unbind
    return (.ok (), s)

inductive Performs (s : Slot) (files : Files.Tree) : Operation → Except BuildError Unit × Slot → Trace → Prop
  | load {name : String} {r : Except BuildError Unit × Slot} {t : Trace} :
    Loads s files name r t → Performs s files (.load name) r t
  | reloadUnnamed : s.shaderName = none → Performs s files .reload (.error .noShaderSelected, s) []
  | reload {name : String} {r : Except BuildError Unit × Slot} {t : Trace} :
    s.shaderName = some name → Loads s files name r t → Performs s files .reload r t
  | swapUnnamed : s.shaderName = none → Performs s files .hotSwap (.error .noShaderSelected, s) []
  | swapEmpty {name : String} {r : Except BuildError Unit × Slot} {t : Trace} :
    s.shaderName = some name → s.active = none → Loads s files name r t → Performs s files .hotSwap r t
  | swap {name : String} {l : Linked} {r : Except BuildError Unit × Slot} {t : Trace} :
    s.shaderName = some name → s.active = some l → Swaps s files name l r t → Performs s files .hotSwap r t
  | teardown : Performs s files .teardown (.ok (), { s with active := none }) s.tearing
  | bindEmpty : s.active = none → Performs s files .bind (.ok (), s) []
  | bind {l : Linked} : s.active = some l → Performs s files .bind (.ok (), s) [said (.useProgram (some l.program)) ()]
  | unbind : Performs s files .unbind (.ok (), s) [said (.useProgram none) ()]

theorem reload_follows (s : Slot) (files : Files.Tree) :
    (s.reload : Run σ _).Follows files fun r t _ => Performs s files .reload r t := by
  unfold reload
  cases h : s.shaderName with
  | none => exact .pure (.reloadUnnamed h)
  | some name => exact (load_follows s files name).mono (fun r t _ hl => .reload h hl.1)

theorem hotSwap_performs (s : Slot) (files : Files.Tree) :
    (s.hotSwap : Run σ _).Follows files fun r t _ => Performs s files .hotSwap r t := by
  cases hn : s.shaderName with
  | none =>
    unfold hotSwap
    rw [hn]
    exact .pure (.swapUnnamed hn)
  | some name =>
    cases hl : s.active with
    | none =>
      unfold hotSwap
      rw [hn, hl]
      exact (load_follows s files name).mono (fun r t _ h => .swapEmpty hn hl h.1)
    | some l => exact (hotSwap_follows s files name l hn hl).mono (fun r t _ h => .swap hn hl h.1)

theorem bind_calls (s : Slot) :
    (s.bind : Run σ Bool).Calls fun b t =>
      match s.active with
      | none => b = false ∧ t = []
      | some l => b = true ∧ t = [said (.useProgram (some l.program)) ()] := by
  intro files
  unfold bind
  cases s.active with
  | none => exact .pure ⟨⟨rfl, rfl⟩, rfl⟩
  | some l => exact .ask fun _ => .pure ⟨⟨rfl, rfl⟩, rfl⟩

/-- **Every operation keeps to its script**, on every host. -/
theorem perform_follows (s : Slot) (files : Files.Tree) (op : Operation) :
    (s.perform op : Run σ _).Follows files fun r t _ => Performs s files op r t := by
  cases op with
  | load name => exact (load_follows s files name).mono (fun r t _ h => .load h.1)
  | reload => exact reload_follows s files
  | hotSwap => exact hotSwap_performs s files
  | teardown =>
    refine .calls (teardown_calls s) fun s' t h => ?_
    obtain ⟨rfl, rfl⟩ := h
    exact .pure (by rw [List.append_nil]; exact .teardown)
  | bind =>
    refine .calls (bind_calls s) fun b t h => ?_
    cases hl : s.active with
    | none => rw [hl] at h; obtain ⟨-, rfl⟩ := h; exact .pure (.bindEmpty hl)
    | some l => rw [hl] at h; obtain ⟨-, rfl⟩ := h; exact .pure (.bind hl)
  | unbind => exact .ask fun _ => .pure .unbind

/-! ## The recipe is for good -/

section

variable {s : Slot} {files : Files.Tree} {name : String} {r : Except BuildError Unit × Slot} {t : Trace}

theorem Loads.recipe (h : Loads s files name r t) : r.2.recipe = s.recipe := by
  cases h <;> rfl

theorem Swaps.recipe {l : Linked} (h : Swaps s files name l r t) : r.2.recipe = s.recipe := by
  cases h <;> rfl

theorem Performs.recipe {op : Operation} (h : Performs s files op r t) : r.2.recipe = s.recipe := by
  cases h with
  | load hl | reload _ hl | swapEmpty _ _ hl => exact hl.recipe
  | swap _ _ hx => exact hx.recipe
  | reloadUnnamed _ | swapUnnamed _ | teardown | bindEmpty _ | bind _ | unbind => rfl

end

end Slot

/-! ## Nothing but shaders and programs -/

/-- Whether an entry is a request about shaders and programs, and not about uniforms. -/
def isObjectCall : Entry → Bool
  | .call ⟨.pipeline (.uniformLocation _ _), _⟩ => false
  | .call ⟨.pipeline (.setUniform _ _), _⟩ => false
  | .call ⟨.pipeline _, _⟩ => true
  | _ => false

/-- Whether such a request makes no program current either. -/
def isBuildingCall : Entry → Bool
  | .call ⟨.pipeline (.useProgram (some _)), _⟩ => false
  | e => isObjectCall e

theorem isObjectCall_of_isBuildingCall {e : Entry} (h : isBuildingCall e = true) : isObjectCall e = true := by
  unfold isBuildingCall at h
  split at h
  · cases h
  · exact h

theorem binds?_of_building {e : Entry} (h : isBuildingCall e = true) : e.binds?.getD none = none := by
  match e with
  | .event _ => cases h
  | .call ⟨.draw _, _⟩ => cases h
  | .call ⟨.screen _, _⟩ => cases h
  | .call ⟨.pipeline r, _⟩ =>
    cases r with
    | useProgram p =>
      cases p with
      | none => rfl
      | some _ => cases h
    | _ => rfl

section

variable {t : Trace}

theorem Compiles.all_building {stage : Stage} {source : String} {r : Except BuildError ShaderId}
    (h : Compiles stage source r t) : t.all isBuildingCall = true := by
  cases h <;> rfl

theorem Links.all_building {v f : ShaderId} {r : Except BuildError Linked} (h : Links v f r t) :
    t.all isBuildingCall = true := by
  cases h <;> rfl

theorem Builds.all_building {vText fText : String} {r : Except BuildError Linked} (h : Builds vText fText r t) :
    t.all isBuildingCall = true := by
  cases h with
  | noVertex hc => exact hc.all_building
  | noFragment hc hc' => rw [List.all_append, List.all_append, hc.all_building, hc'.all_building]; rfl
  | staged hc hc' hl =>
    rw [List.all_append, List.all_append, hc.all_building, hc'.all_building, hl.all_building]
    rfl

theorem FromSource.all_building {α : Type} {recipe : Recipe} {files : Files.Tree} {name : String}
    {script : String → Except BuildError α → Trace → Prop} {r : Except BuildError α}
    (h : FromSource recipe files name script r t)
    (hs : ∀ {text : String} {r : Except BuildError α} {t : Trace}, script text r t → t.all isBuildingCall = true) :
    t.all isBuildingCall = true := by
  cases h with
  | unread _ => rfl
  | read _ h => exact hs h

namespace Slot

theorem tearing_all_building (s : Slot) : s.tearing.all isBuildingCall = true := by
  unfold tearing
  cases s.active <;> rfl

variable {s : Slot} {files : Files.Tree} {name : String} {r : Except BuildError Unit × Slot}

theorem Loads.all_building (h : Loads s files name r t) : t.all isBuildingCall = true := by
  cases h with
  | failed hb => rw [List.all_append, tearing_all_building, hb.all_building Builds.all_building]; rfl
  | loaded hb => rw [List.all_append, tearing_all_building, hb.all_building Builds.all_building]; rfl

theorem Exchanges.all_building {l : Linked} {f : ShaderId} {r : Except BuildError Linked} (h : Exchanges l f r t) :
    t.all isBuildingCall = true := by
  cases h <;> rfl

theorem Swaps.all_building {l : Linked} (h : Swaps s files name l r t) : t.all isBuildingCall = true := by
  cases h with
  | unbuilt hb => rw [List.all_append, hb.all_building Compiles.all_building]; rfl
  | unlinked hb hx => rw [List.all_append, hb.all_building Compiles.all_building, hx.all_building]; rfl
  | swapped hb hx => rw [List.all_append, hb.all_building Compiles.all_building, hx.all_building]; rfl

/-- Operations on a slot but `bind` make no request but about shaders and programs, and make none current. -/
theorem Performs.all_building {op : Operation} (h : Performs s files op r t) (hop : op ≠ .bind) :
    t.all isBuildingCall = true := by
  cases h with
  | load hl => exact hl.all_building
  | reloadUnnamed _ => rfl
  | reload _ hl => exact hl.all_building
  | swapUnnamed _ => rfl
  | swapEmpty _ _ hl => exact hl.all_building
  | swap _ _ hx => exact hx.all_building
  | teardown => exact tearing_all_building s
  | bindEmpty _ => exact absurd rfl hop
  | bind _ => exact absurd rfl hop
  | unbind => rfl

theorem Performs.all_objects {op : Operation} (h : Performs s files op r t) : t.all isObjectCall = true := by
  by_cases hop : op = .bind
  · subst hop
    cases h <;> rfl
  · exact List.all_eq_true.2 fun e he =>
      isObjectCall_of_isBuildingCall (List.all_eq_true.1 (h.all_building hop) e he)

end Slot

end

end Program
end LiveShader
