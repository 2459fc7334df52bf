import LiveShader.Proofs.Machine.Accounts
/-!
# Proofs.Machine.Ledger — the shaders and programs that a trace has made and not yet deleted

A ledger is read off a trace alone: it has a record of every object whose creation the trace shows and whose deletion
it does not, with what has been done to the object since.  `Fresh` is what a driver owes (it hands out no handle that
is live), `Permits` what a program owes in return.  A discipline kept along a trace in which handles are fresh deletes
every object that is gone at the end exactly once (`deletions_of_created`).
-/
namespace LiveShader
namespace Machine

/-- A request to the pipeline with its answer, as an entry of a trace. -/
abbrev said (r : PipelineRequest) (a : r.Answer) : Entry := .call ⟨.pipeline r, a⟩

/-- A handle of an object of the pipeline. -/
inductive Handle where
  | shader (id : ShaderId)
  | program (id : ProgramId)
deriving DecidableEq, Repr

def PipelineRequest.handles : PipelineRequest → List Handle
  | .compileShader s _ | .shaderLog s | .deleteShader s => [.shader s]
  | .attachShader p s | .detachShader p s => [.program p, .shader s]
  | .linkProgram p | .programLog p | .deleteProgram p | .useProgram (some p) | .uniformLocation p _ => [.program p]
  | .createShader _ | .createProgram | .useProgram none | .setUniform _ _ => []

def PipelineRequest.deletes? : PipelineRequest → Option Handle
  | .deleteShader s => some (.shader s)
  | .deleteProgram p => some (.program p)
  | _ => none

def PipelineRequest.creates? : (r : PipelineRequest) → r.Answer → Option Handle
  | .createShader _, .ok id => some (.shader id)
  | .createProgram, .ok id => some (.program id)
  | _, _ => none

def Entry.handles : Entry → List Handle
  | .call ⟨.pipeline r, _⟩ => r.handles
  | _ => []

def Entry.deletes? : Entry → Option Handle
  | .call ⟨.pipeline r, _⟩ => r.deletes?
  | _ => none

def Entry.creates? : Entry → Option Handle
  | .call ⟨.pipeline r, a⟩ => r.creates? a
  | _ => none

/-- What an entry makes current, if it is about that: a program or none. -/
def Entry.binds? : Entry → Option (Option ProgramId)
  | .call ⟨.pipeline (.useProgram p), _⟩ => some p
  | _ => none

/-- A live shader: its stage, the source it was given last, and whether that compiled. -/
structure ShaderRecord where
  id : ShaderId
  stage : Stage
  source : String
  compiled : Bool
deriving DecidableEq, Repr

/-- A live program: the stages attached to it, in order, and the number of its last link among all links that
succeeded, unless that link failed. -/
structure ProgramRecord where
  id : ProgramId
  attached : List ShaderId
  link : Option Nat
deriving DecidableEq, Repr

/-- The live objects, latest first, the current program, and the number of links that succeeded. -/
structure Ledger where
  shaders : List ShaderRecord := []
  programs : List ProgramRecord := []
  current : Option ProgramId := none
  links : Nat := 0
deriving DecidableEq, Repr

namespace Ledger

def live (L : Ledger) : List Handle := L.shaders.map (.shader ·.id) ++ L.programs.map (.program ·.id)

def shader? (L : Ledger) (id : ShaderId) : Option ShaderRecord := L.shaders.find? (·.id == id)

def stages (L : Ledger) (p : ProgramRecord) : List ShaderRecord := p.attached.filterMap L.shader?

def addShader (L : Ledger) (x : ShaderRecord) : Ledger := { L with shaders := x :: L.shaders }

def addProgram (L : Ledger) (x : ProgramRecord) : Ledger := { L with programs := x :: L.programs }

def dropShader (L : Ledger) (id : ShaderId) : Ledger := { L with shaders := L.shaders.filter (·.id != id) }

def dropProgram (L : Ledger) (id : ProgramId) : Ledger := { L with programs := L.programs.filter (·.id != id) }

def onShader (L : Ledger) (id : ShaderId) (f : ShaderRecord → ShaderRecord) : Ledger :=
  { L with shaders := L.shaders.map fun s => if s.id = id then f s else s }

def onProgram (L : Ledger) (id : ProgramId) (f : ProgramRecord → ProgramRecord) : Ledger :=
  { L with programs := L.programs.map fun p => if p.id = id then f p else p }

def enterPipeline (L : Ledger) : (r : PipelineRequest) → r.Answer → Ledger
  | .createShader stage, .ok id => L.addShader ⟨id, stage, "", false⟩
  | .createShader _, .error _ => L
  | .compileShader s source, compiled => L.onShader s fun x => { x with source, compiled }
  | .deleteShader s, _ => L.dropShader s
  | .createProgram, .ok id => L.addProgram ⟨id, [], none⟩
  | .createProgram, .error _ => L
  | .attachShader p s, _ => L.onProgram p fun x => { x with attached := x.attached ++ [s] }
  | .detachShader p s, _ => L.onProgram p fun x => { x with attached := x.attached.filter (· != s) }
  | .linkProgram p, true => { L.onProgram p fun x => { x with link := some (L.links + 1) } with links := L.links + 1 }
  | .linkProgram p, false => L.onProgram p fun x => { x with link := none }
  | .deleteProgram p, _ => L.dropProgram p
  | .useProgram p, _ => { L with current := p }
  | .shaderLog _, _ | .programLog _, _ | .uniformLocation _ _, _ | .setUniform _ _, _ => L

def enter (L : Ledger) : Entry → Ledger
  | .call ⟨.pipeline r, a⟩ => L.enterPipeline r a
  | _ => L

def after (L : Ledger) (t : Trace) : Ledger := t.foldl enter L

/-- A condition holds of every entry of a trace, at the ledger before it. -/
def Along (R : Ledger → Entry → Prop) : Ledger → Trace → Prop
  | _, [] => True
  | L, e :: t => R L e ∧ Along R (L.enter e) t

/-- A handle that is handed out is not live. -/
def Fresh (L : Ledger) (e : Entry) : Prop := ∀ h, e.creates? = some h → h ∉ L.live

instance Fresh.decidable (L : Ledger) (e : Entry) : Decidable (Fresh L e) :=
  decidable_of_iff (∀ h ∈ e.creates?, h ∉ L.live) Iff.rfl

instance Along.decidable {R : Ledger → Entry → Prop} [∀ L e, Decidable (R L e)] :
    ∀ (L : Ledger) (t : Trace), Decidable (Along R L t)
  | _, [] => isTrue trivial
  | L, e :: t => @instDecidableAnd (R L e) (Along R (L.enter e) t) _ (Along.decidable (L.enter e) t)

/-- Stages attached to live programs are live, and at most one of a program is a fragment stage. -/
structure Tidy (L : Ledger) : Prop where
  attached_live : ∀ p ∈ L.programs, ∀ s ∈ p.attached, .shader s ∈ L.live
  one_fragment : ∀ p ∈ L.programs, (L.stages p).countP (·.stage == .fragment) ≤ 1

/-- A call names live handles only, deletes no stage that a live program has attached, and leaves the ledger tidy. -/
structure Permits (L : Ledger) (e : Entry) : Prop where
  names_live : ∀ h ∈ e.handles, h ∈ L.live
  detached : ∀ s, e.deletes? = some (.shader s) → ∀ p ∈ L.programs, s ∉ p.attached
  tidy : (L.enter e).Tidy

/-- A trace that keeps to the discipline leads from one ledger to another. -/
structure Leads (L : Ledger) (t : Trace) (M : Ledger) : Prop where
  along : L.Along Permits t
  after_eq : L.after t = M

end Ledger

def ledger (t : Trace) : Ledger := Ledger.after {} t

namespace Ledger

variable {R Q : Ledger → Entry → Prop}

@[simp] theorem after_nil (L : Ledger) : L.after [] = L := rfl

@[simp] theorem after_cons (L : Ledger) (e : Entry) (t : Trace) : L.after (e :: t) = (L.enter e).after t := rfl

@[simp] theorem after_append (L : Ledger) (t u : Trace) : L.after (t ++ u) = (L.after t).after u :=
  List.foldl_append

@[simp] theorem along_nil (L : Ledger) : Along R L [] := trivial

@[simp] theorem along_cons (L : Ledger) (e : Entry) (t : Trace) :
    Along R L (e :: t) ↔ R L e ∧ Along R (L.enter e) t := Iff.rfl

@[simp] theorem along_append : ∀ (t u : Trace) (L : Ledger), Along R L (t ++ u) ↔ Along R L t ∧ Along R (L.after t) u
  | [], u, L => by simp
  | e :: t, u, L => by
    rw [List.cons_append, along_cons, along_cons, along_append t u, after_cons, and_assoc]

/-- **Along a trace means at every place in it.** -/
theorem along_iff : ∀ (t : Trace) (L : Ledger),
    Along R L t ↔ ∀ pre e post, t = pre ++ e :: post → R (L.after pre) e
  | [], L => ⟨fun _ pre e post h => (by cases pre <;> cases h), fun _ => trivial⟩
  | e :: t, L => by
    rw [along_cons, along_iff t]
    constructor
    · rintro ⟨he, ht⟩ pre e' post h
      cases pre with
      | nil => cases h; exact he
      | cons x pre => cases h; exact ht pre e' post rfl
    · intro h
      exact ⟨h [] e t rfl, fun pre e' post ht => h (e :: pre) e' post (by rw [ht]; rfl)⟩

/-- **What is current after an entry** is what it makes current, or what was. -/
theorem current_enter (L : Ledger) (e : Entry) : (L.enter e).current = e.binds?.getD L.current := by
  match e with
  | .event _ => rfl
  | .call ⟨.draw _, _⟩ => rfl
  | .call ⟨.screen _, _⟩ => rfl
  | .call ⟨.pipeline r, a⟩ =>
    cases r with
    | createShader _ | createProgram | linkProgram _ => cases a <;> rfl
    | _ => rfl

/-! ## What is live -/

theorem mem_live_shader {L : Ledger} {id : ShaderId} : .shader id ∈ L.live ↔ ∃ x ∈ L.shaders, x.id = id := by
  simp [live]

theorem mem_live_program {L : Ledger} {id : ProgramId} : .program id ∈ L.live ↔ ∃ x ∈ L.programs, x.id = id := by
  simp [live]

theorem live_onShader (L : Ledger) (id : ShaderId) (f : ShaderRecord → ShaderRecord) (hf : ∀ x, (f x).id = x.id) :
    (L.onShader id f).live = L.live := by
  have h : ∀ x : ShaderRecord, (if x.id = id then f x else x).id = x.id := by
    intro x; split
    · exact hf x
    · rfl
  simp only [live, onShader, List.map_map, Function.comp_def, h]

theorem live_onProgram (L : Ledger) (id : ProgramId) (f : ProgramRecord → ProgramRecord)
    (hf : ∀ x, (f x).id = x.id) : (L.onProgram id f).live = L.live := by
  have h : ∀ x : ProgramRecord, (if x.id = id then f x else x).id = x.id := by
    intro x; split
    · exact hf x
    · rfl
  simp only [live, onProgram, List.map_map, Function.comp_def, h]

/-- **What is live after an entry**: what it handed out, and what was live and is not deleted by it. -/
theorem mem_live_enter (L : Ledger) (e : Entry) (h : Handle) :
    h ∈ (L.enter e).live ↔ e.creates? = some h ∨ (h ∈ L.live ∧ e.deletes? ≠ some h) := by
  have none_changed : h ∈ L.live ↔ (none = some h) ∨ (h ∈ L.live ∧ (none : Option Handle) ≠ some h) := by simp
  match e with
  | .event _ => exact none_changed
  | .call ⟨.draw _, _⟩ => exact none_changed
  | .call ⟨.screen _, _⟩ => exact none_changed
  | .call ⟨.pipeline r, a⟩ =>
    cases r with
    | createShader stage =>
      cases a with
      | error m => exact none_changed
      | ok id =>
        show h ∈ Handle.shader id :: L.live ↔ some (Handle.shader id) = some h ∨ (h ∈ L.live ∧ none ≠ some h)
        simp [eq_comm]
    | createProgram =>
      cases a with
      | error m => exact none_changed
      | ok id =>
        show h ∈ L.shaders.map (Handle.shader ·.id) ++ Handle.program id :: L.programs.map (Handle.program ·.id) ↔
          some (Handle.program id) = some h ∨ (h ∈ L.live ∧ none ≠ some h)
        simp only [live, List.mem_append, List.mem_cons, Option.some.injEq, ne_eq, reduceCtorEq, not_false_eq_true,
          and_true, eq_comm (a := h)]
        exact or_left_comm
    | compileShader s source =>
      show h ∈ (L.onShader s _).live ↔ _
      rw [live_onShader]
      · exact none_changed
      · exact fun _ => rfl
    | attachShader p s =>
      show h ∈ (L.onProgram p _).live ↔ _
      rw [live_onProgram]
      · exact none_changed
      · exact fun _ => rfl
    | detachShader p s =>
      show h ∈ (L.onProgram p _).live ↔ _
      rw [live_onProgram]
      · exact none_changed
      · exact fun _ => rfl
    | linkProgram p =>
      cases a <;>
      · show h ∈ (L.onProgram p _).live ↔ _
        rw [live_onProgram]
        · exact none_changed
        · exact fun _ => rfl
    | deleteShader s =>
      show h ∈ (L.shaders.filter (·.id != s)).map (Handle.shader ·.id) ++ L.programs.map (Handle.program ·.id) ↔
        none = some h ∨ (h ∈ L.live ∧ some (Handle.shader s) ≠ some h)
      cases h <;> grind [live]
    | deleteProgram p =>
      show h ∈ L.shaders.map (Handle.shader ·.id) ++ (L.programs.filter (·.id != p)).map (Handle.program ·.id) ↔
        none = some h ∨ (h ∈ L.live ∧ some (Handle.program p) ≠ some h)
      cases h <;> grind [live]
    | shaderLog s => exact none_changed
    | programLog p => exact none_changed
    | useProgram p => exact none_changed
    | uniformLocation p name => exact none_changed
    | setUniform location value => exact none_changed

/-! ## Deleted once -/

theorem mem_handles_of_deletes? : ∀ {e : Entry} {h : Handle}, e.deletes? = some h → h ∈ e.handles
  | .event _, _, hd => by cases hd
  | .call ⟨.draw _, _⟩, _, hd => by cases hd
  | .call ⟨.screen _, _⟩, _, hd => by cases hd
  | .call ⟨.pipeline r, _⟩, h, hd => by
    cases r <;> cases hd <;> exact List.mem_cons_self

/-- How often a handle is deleted before it is handed out again. -/
def deletions (h : Handle) (t : Trace) : Nat :=
  (t.takeWhile (·.creates? != some h)).countP (·.deletes? == some h)

/-- What is made and freed after a ledger. -/
def accounts (L : Ledger) : Accounts Handle where
  makes? := Entry.creates?
  frees? := Entry.deletes?
  live past := (L.after past).live
  mem_live_concat past e h := by
    rw [after_append]
    exact mem_live_enter (L.after past) e h

/-- **Where nothing is left at the end, every object was deleted exactly once.** -/
theorem deletions_of_created {L : Ledger} {t : Trace} (hf : Along Fresh L t) (ht : Along Permits L t)
    (hend : (L.after t).live = []) {pre post : Trace} {e : Entry} {h : Handle} (hsplit : t = pre ++ e :: post)
    (hc : e.creates? = some h) : deletions h post = 1 := by
  have hmakes : Throughout L.accounts.MakesNew [] t :=
    fun pre e post hs h hc => (along_iff t L).1 hf pre e post hs h hc
  have hfrees : Throughout L.accounts.FreesLive [] t :=
    fun pre e post hs h hd => ((along_iff t L).1 ht pre e post hs).names_live h (mem_handles_of_deletes? hd)
  exact L.accounts.deletions_of_made hmakes hfrees hend hsplit hc

/-! ## Objects on top of others -/

theorem ne_of_fresh_shader {L : Ledger} {id : ShaderId} (h : .shader id ∉ L.live) : ∀ x ∈ L.shaders, x.id ≠ id :=
  fun x hx he => h (mem_live_shader.2 ⟨x, hx, he⟩)

theorem ne_of_fresh_program {L : Ledger} {id : ProgramId} (h : .program id ∉ L.live) : ∀ x ∈ L.programs, x.id ≠ id :=
  fun x hx he => h (mem_live_program.2 ⟨x, hx, he⟩)

theorem mem_live_addShader {L : Ledger} {x : ShaderRecord} {h : Handle} :
    h ∈ (L.addShader x).live ↔ h = .shader x.id ∨ h ∈ L.live := by
  simp [live, addShader]

theorem mem_live_addProgram {L : Ledger} {x : ProgramRecord} {h : Handle} :
    h ∈ (L.addProgram x).live ↔ h = .program x.id ∨ h ∈ L.live := by
  simp only [live, addProgram, List.map_cons, List.mem_append, List.mem_cons]
  exact or_left_comm

theorem onShader_addShader {L : Ledger} {x : ShaderRecord} (hx : .shader x.id ∉ L.live)
    (f : ShaderRecord → ShaderRecord) : (L.addShader x).onShader x.id f = L.addShader (f x) := by
  have h : L.shaders.map (fun s => if s.id = x.id then f s else s) = L.shaders :=
    (List.map_congr_left (fun s hs => if_neg (ne_of_fresh_shader hx s hs))).trans (List.map_id' _)
  simp only [onShader, addShader, List.map_cons, if_pos, h]

theorem onProgram_addProgram {L : Ledger} {x : ProgramRecord} (hx : .program x.id ∉ L.live)
    (f : ProgramRecord → ProgramRecord) : (L.addProgram x).onProgram x.id f = L.addProgram (f x) := by
  have h : L.programs.map (fun p => if p.id = x.id then f p else p) = L.programs :=
    (List.map_congr_left (fun p hp => if_neg (ne_of_fresh_program hx p hp))).trans (List.map_id' _)
  simp only [onProgram, addProgram, List.map_cons, if_pos, h]

theorem dropShader_addShader {L : Ledger} {x : ShaderRecord} (hx : .shader x.id ∉ L.live) :
    (L.addShader x).dropShader x.id = L := by
  have h : L.shaders.filter (·.id != x.id) = L.shaders :=
    List.filter_eq_self.2 (fun s hs => by simpa using ne_of_fresh_shader hx s hs)
  simp [dropShader, addShader, h]

theorem dropProgram_addProgram {L : Ledger} {x : ProgramRecord} (hx : .program x.id ∉ L.live) :
    (L.addProgram x).dropProgram x.id = L := by
  have h : L.programs.filter (·.id != x.id) = L.programs :=
    List.filter_eq_self.2 (fun p hp => by simpa using ne_of_fresh_program hx p hp)
  simp [dropProgram, addProgram, h]

theorem shader?_addShader (L : Ledger) (x : ShaderRecord) (id : ShaderId) :
    (L.addShader x).shader? id = if x.id = id then some x else L.shader? id := by
  unfold shader? addShader
  by_cases h : x.id = id
  · rw [if_pos h, List.find?_cons_of_pos (by simpa using h)]
  · rw [if_neg h, List.find?_cons_of_neg (by simpa using h)]

theorem Tidy.congr {L M : Ledger} (hL : L.Tidy) (hs : M.shaders = L.shaders) (hp : M.programs = L.programs) :
    M.Tidy := by
  have hlive : M.live = L.live := by unfold live; rw [hs, hp]
  have hstages : ∀ p, M.stages p = L.stages p := fun p => by unfold stages shader?; rw [hs]
  refine ⟨fun p h s => ?_, fun p h => ?_⟩
  · rw [hlive]; exact hL.attached_live p (hp ▸ h) s
  · rw [hstages]; exact hL.one_fragment p (hp ▸ h)

theorem Tidy.addShader {L : Ledger} (hL : L.Tidy) {x : ShaderRecord} (hx : .shader x.id ∉ L.live) :
    (L.addShader x).Tidy := by
  refine ⟨fun p hp s hs => mem_live_addShader.2 (Or.inr (hL.attached_live p hp s hs)), fun p hp => ?_⟩
  have h : (L.addShader x).stages p = L.stages p := by
    refine List.filterMap_congr (fun s hs => ?_)
    rw [shader?_addShader, if_neg]
    rintro rfl
    exact hx (hL.attached_live p hp _ hs)
  rw [h]
  exact hL.one_fragment p hp

theorem Tidy.addProgram {L : Ledger} (hL : L.Tidy) {x : ProgramRecord} (hx : ∀ s ∈ x.attached, .shader s ∈ L.live)
    (hc : (L.stages x).countP (·.stage == .fragment) ≤ 1) : (L.addProgram x).Tidy := by
  refine ⟨fun p hp s hs => mem_live_addProgram.2 (Or.inr ?_), fun p hp => ?_⟩
  · rcases List.mem_cons.1 hp with rfl | hp
    · exact hx s hs
    · exact hL.attached_live p hp s hs
  · rcases List.mem_cons.1 hp with rfl | hp
    · exact hc
    · exact hL.one_fragment p hp

theorem Tidy.not_attached {L : Ledger} (hL : L.Tidy) {s : ShaderId} (hs : .shader s ∉ L.live) :
    ∀ p ∈ L.programs, s ∉ p.attached :=
  fun p hp ha => hs (hL.attached_live p hp s ha)

/-! ## Where disciplined traces lead -/

namespace Leads

variable {L M N : Ledger} {t u : Trace}

theorem nil (L : Ledger) : Leads L [] L := ⟨trivial, rfl⟩

theorem append (ht : Leads L t M) (hu : Leads M u N) : Leads L (t ++ u) N := by
  refine ⟨(along_append t u L).2 ⟨ht.along, ?_⟩, ?_⟩
  · rw [ht.after_eq]; exact hu.along
  · rw [after_append, ht.after_eq, hu.after_eq]

theorem call {e : Entry} (hn : ∀ h ∈ e.handles, h ∈ L.live) (hd : e.deletes? = none) (he : L.enter e = M)
    (hM : M.Tidy) (ht : Leads M t N) : Leads L (e :: t) N := by
  subst he
  exact ⟨⟨⟨hn, fun s h => (by rw [hd] at h; cases h), hM⟩, ht.along⟩, ht.after_eq⟩

theorem deleteShader {s : ShaderId} (hs : .shader s ∈ L.live) (hd : ∀ p ∈ L.programs, s ∉ p.attached)
    (he : L.dropShader s = M) (hM : M.Tidy) (ht : Leads M t N) : Leads L (said (.deleteShader s) () :: t) N := by
  subst he
  refine ⟨⟨⟨fun h hm => List.mem_singleton.1 hm ▸ hs, fun s' h => ?_, hM⟩, ht.along⟩, ht.after_eq⟩
  cases h
  exact hd

theorem deleteProgram {p : ProgramId} (hp : .program p ∈ L.live) (he : L.dropProgram p = M) (hM : M.Tidy)
    (ht : Leads M t N) : Leads L (said (.deleteProgram p) () :: t) N := by
  subst he
  exact ⟨⟨⟨fun h hm => List.mem_singleton.1 hm ▸ hp, fun s h => (by cases h), hM⟩, ht.along⟩, ht.after_eq⟩

theorem deleteTop {x : ShaderRecord} (hL : L.Tidy) (hx : .shader x.id ∉ L.live) (ht : Leads L t N) :
    Leads (L.addShader x) (said (.deleteShader x.id) () :: t) N :=
  deleteShader (mem_live_addShader.2 (Or.inl rfl)) (hL.not_attached hx) (dropShader_addShader hx) hL ht

end Leads

end Ledger
end Machine
end LiveShader
