import LiveShader.Proofs.Program.Script
/-!
# Proofs.Program.Ownership — what a slot owns, and that it releases it

An empty slot owns nothing; a loaded one owns one linked program with its vertex and its fragment stage attached, in
this order (`Slot.Owns`).  A build leaves the objects there were before as they were and puts its own on top, or
leaves everything as it was.
-/
namespace LiveShader
namespace Program

open Machine Source
open Ledger (Leads Fresh Tidy mem_live_addShader mem_live_addProgram)

variable {L : Ledger}

theorem enter_compile {id : ShaderId} (hid : .shader id ∉ L.live) (stage : Stage) (source text : String)
    (old status : Bool) :
    (L.addShader ⟨id, stage, text, old⟩).enter (said (.compileShader id source) status) =
      L.addShader ⟨id, stage, source, status⟩ :=
  Ledger.onShader_addShader (x := ⟨id, stage, text, old⟩) hid _

theorem leads_compile {id : ShaderId} (hL : L.Tidy) (hid : .shader id ∉ L.live) (stage : Stage) (source : String)
    (status : Bool) {t : Trace} {M : Ledger} (ht : Leads (L.addShader ⟨id, stage, source, status⟩) t M) :
    Leads L (said (.createShader stage) (.ok id) :: said (.compileShader id source) status :: t) M := by
  refine .call (fun _ h => by cases h) rfl rfl (hL.addShader (x := ⟨id, stage, "", false⟩) hid) ?_
  refine .call (fun h hm => ?_) rfl (enter_compile hid stage source "" false status) (hL.addShader hid) ht
  exact mem_live_addShader.2 (Or.inl (List.mem_singleton.1 hm))

/-- **A stage that compiles is put on top of the objects there are**; one that does not leaves them as they were. -/
theorem Compiles.leads {stage : Stage} {source : String} {r : Except BuildError ShaderId} {t : Trace}
    (h : Compiles stage source r t) (hL : L.Tidy) (hf : L.Along Fresh t) :
    match r with
    | .ok id => .shader id ∉ L.live ∧ Leads L t (L.addShader ⟨id, stage, source, true⟩)
    | .error _ => Leads L t L := by
  cases h with
  | refused message => exact .call (fun _ h => by cases h) rfl rfl hL (.nil L)
  | compiled id =>
    have hid : Handle.shader id ∉ L.live := hf.1 _ rfl
    exact ⟨hid, leads_compile hL hid stage source true (.nil _)⟩
  | rejected id log =>
    have hid : Handle.shader id ∉ L.live := hf.1 _ rfl
    refine leads_compile hL hid stage source false (.call (fun h hm => ?_) rfl rfl (hL.addShader hid) ?_)
    · exact mem_live_addShader.2 (Or.inl (List.mem_singleton.1 hm))
    · exact .deleteTop hL hid (.nil L)

/-! ## Linking two new stages -/

/-- The ledger with a vertex stage and a fragment stage put on top. -/
def staged (L : Ledger) (v f : ShaderId) (vText fText : String) : Ledger :=
  (L.addShader ⟨v, .vertex, vText, true⟩).addShader ⟨f, .fragment, fText, true⟩

/-- The ledger with a linked program and its two stages put on top. -/
def joined (L : Ledger) (l : Linked) (vText fText : String) : Ledger :=
  { (staged L l.vertex l.fragment vText fText).addProgram
      ⟨l.program, [l.vertex, l.fragment], some (L.links + 1)⟩ with links := L.links + 1 }

section

variable {v f : ShaderId} {vText fText : String}

theorem ne_of_fresh {x : ShaderRecord} (hf : .shader f ∉ (L.addShader x).live) : f ≠ x.id :=
  fun h => hf (mem_live_addShader.2 (Or.inl (by rw [h])))

theorem staged_tidy (hL : L.Tidy) (hv : .shader v ∉ L.live)
    (hf : .shader f ∉ (L.addShader ⟨v, .vertex, vText, true⟩).live) :
    (staged L v f vText fText).Tidy := (hL.addShader hv).addShader hf

theorem staged_stages (hf : .shader f ∉ (L.addShader ⟨v, .vertex, vText, true⟩).live) (p : ProgramId)
    (link : Option Nat) :
    (staged L v f vText fText).stages ⟨p, [v, f], link⟩ =
      [⟨v, .vertex, vText, true⟩, ⟨f, .fragment, fText, true⟩] := by
  have hne : f ≠ v := ne_of_fresh hf
  simp [Ledger.stages, staged, Ledger.shader?_addShader, hne]

theorem staged_addProgram_tidy (hL : L.Tidy) (hv : .shader v ∉ L.live)
    (hf : .shader f ∉ (L.addShader ⟨v, .vertex, vText, true⟩).live) (p : ProgramId) {attached : List ShaderId}
    (ha : attached.Sublist [v, f]) (link : Option Nat) :
    ((staged L v f vText fText).addProgram ⟨p, attached, link⟩).Tidy := by
  refine (staged_tidy hL hv hf).addProgram (fun s hs => ?_) ?_
  · have hm : s ∈ [v, f] := ha.subset hs
    rcases List.mem_cons.1 hm with rfl | hm
    · exact mem_live_addShader.2 (Or.inr (mem_live_addShader.2 (Or.inl rfl)))
    · exact mem_live_addShader.2 (Or.inl (by rw [List.mem_singleton.1 hm]))
  · have hsub := (ha.filterMap (staged L v f vText fText).shader?).countP_le (p := (·.stage == .fragment))
    refine Nat.le_trans hsub ?_
    show ((staged L v f vText fText).stages ⟨p, [v, f], none⟩).countP _ ≤ 1
    rw [staged_stages hf]
    exact Nat.le_refl 1

theorem enter_attach {p : ProgramId} (hp : .program p ∉ L.live) (attached : List ShaderId) (s : ShaderId) :
    (L.addProgram ⟨p, attached, none⟩).enter (said (.attachShader p s) ()) =
      L.addProgram ⟨p, attached ++ [s], none⟩ :=
  Ledger.onProgram_addProgram (x := ⟨p, attached, none⟩) hp _

theorem leads_attach (hL : L.Tidy) (hv : .shader v ∉ L.live)
    (hf : .shader f ∉ (L.addShader ⟨v, .vertex, vText, true⟩).live) {p : ProgramId}
    (hp : .program p ∉ (staged L v f vText fText).live) {t : Trace} {M : Ledger}
    (ht : Leads ((staged L v f vText fText).addProgram ⟨p, [v, f], none⟩) t M) :
    Leads (staged L v f vText fText)
      (said .createProgram (.ok p) :: said (.attachShader p v) () :: said (.attachShader p f) () :: t) M := by
  have htidy : ∀ attached, attached.Sublist [v, f] →
      ((staged L v f vText fText).addProgram ⟨p, attached, none⟩).Tidy :=
    fun attached ha => staged_addProgram_tidy hL hv hf p ha none
  have hlive : ∀ attached s, s = v ∨ s = f → ∀ h ∈ [Handle.program p, Handle.shader s],
      h ∈ ((staged L v f vText fText).addProgram ⟨p, attached, none⟩).live := by
    intro attached s hs h hm
    rcases List.mem_cons.1 hm with rfl | hm
    · exact mem_live_addProgram.2 (Or.inl rfl)
    · rw [List.mem_singleton.1 hm]
      refine mem_live_addProgram.2 (Or.inr (mem_live_addShader.2 ?_))
      rcases hs with rfl | rfl
      · exact Or.inr (mem_live_addShader.2 (Or.inl rfl))
      · exact Or.inl rfl
  refine .call (fun _ h => by cases h) rfl rfl (htidy [] (List.nil_sublist _)) ?_
  refine .call (hlive [] v (Or.inl rfl)) rfl (enter_attach hp [] v) (htidy [v] ((List.nil_sublist _).cons_cons v)) ?_
  exact .call (hlive [v] f (Or.inr rfl)) rfl (enter_attach hp [v] f) (htidy [v, f] (List.Sublist.refl _)) ht

/-- **Linking two stages that were put on top adds their program, or takes them off again.** -/
theorem Links.leads {r : Except BuildError Linked} {t : Trace} (h : Links v f r t) (hL : L.Tidy)
    (hv : .shader v ∉ L.live) (hf : .shader f ∉ (L.addShader ⟨v, .vertex, vText, true⟩).live)
    (ht : (staged L v f vText fText).Along Fresh t) :
    match r with
    | .ok l => l.vertex = v ∧ l.fragment = f ∧ Leads (staged L v f vText fText) t (joined L l vText fText)
    | .error _ => Leads (staged L v f vText fText) t L := by
  have hoff : Leads (staged L v f vText fText) [said (.deleteShader f) (), said (.deleteShader v) ()] L :=
    .deleteTop (hL.addShader hv) hf (.deleteTop hL hv (.nil L))
  have hstaged : (staged L v f vText fText).Tidy := staged_tidy hL hv hf
  have htidy : ∀ p link, ((staged L v f vText fText).addProgram ⟨p, [v, f], link⟩).Tidy :=
    fun p link => staged_addProgram_tidy hL hv hf p (List.Sublist.refl _) link
  have hlive : ∀ p link, ∀ h ∈ [Handle.program p],
      h ∈ ((staged L v f vText fText).addProgram ⟨p, [v, f], link⟩).live :=
    fun p link h hm => mem_live_addProgram.2 (Or.inl (List.mem_singleton.1 hm))
  cases h with
  | refused message => exact .call (fun _ h => by cases h) rfl rfl hstaged hoff
  | linked p =>
    have hp : Handle.program p ∉ (staged L v f vText fText).live := ht.1 _ rfl
    have hlink : ((staged L v f vText fText).addProgram ⟨p, [v, f], none⟩).enter (said (.linkProgram p) true) =
        joined L ⟨p, v, f⟩ vText fText := by
      show ({ Ledger.onProgram _ p _ with links := _ } : Ledger) = _
      rw [Ledger.onProgram_addProgram (x := ⟨p, [v, f], none⟩) hp]
      rfl
    refine ⟨rfl, rfl, leads_attach hL hv hf hp (.call (hlive p none) rfl hlink ?_ (.nil _))⟩
    exact (htidy p (some (L.links + 1))).congr rfl rfl
  | rejected p log =>
    have hp : Handle.program p ∉ (staged L v f vText fText).live := ht.1 _ rfl
    have hlink : ((staged L v f vText fText).addProgram ⟨p, [v, f], none⟩).enter (said (.linkProgram p) false) =
        (staged L v f vText fText).addProgram ⟨p, [v, f], none⟩ :=
      Ledger.onProgram_addProgram (x := ⟨p, [v, f], none⟩) hp _
    refine leads_attach hL hv hf hp (.call (hlive p none) rfl hlink (htidy p none) ?_)
    refine .call (hlive p none) rfl rfl (htidy p none) ?_
    exact .deleteProgram (hlive p none _ (List.mem_singleton.2 rfl)) (Ledger.dropProgram_addProgram hp) hstaged hoff

end

/-- **A build puts a linked program and its stages on top of the objects there are**, or leaves them as they were. -/
theorem Builds.leads {vText fText : String} {r : Except BuildError Linked} {t : Trace} (h : Builds vText fText r t)
    (hL : L.Tidy) (hf : L.Along Fresh t) :
    match r with
    | .ok l => l.vertex ≠ l.fragment ∧ Leads L t (joined L l vText fText)
    | .error _ => Leads L t L := by
  cases h with
  | noVertex hc => exact hc.leads hL hf
  | noFragment hv hc =>
    rw [Ledger.along_append] at hf
    obtain ⟨hfresh, hlv⟩ := hv.leads hL hf.1
    rw [hlv.after_eq, Ledger.along_append] at hf
    have hlf := hc.leads (hL.addShader hfresh) hf.2.1
    exact hlv.append (hlf.append (.deleteTop hL hfresh (.nil L)))
  | staged hv hc hl =>
    rw [Ledger.along_append] at hf
    obtain ⟨hfresh, hlv⟩ := hv.leads hL hf.1
    rw [hlv.after_eq, Ledger.along_append] at hf
    obtain ⟨hfresh', hlf⟩ := hc.leads (hL.addShader hfresh) hf.2.1
    rw [hlf.after_eq] at hf
    have hll := hl.leads hL hfresh hfresh' hf.2.2
    cases r with
    | error e => exact hlv.append (hlf.append hll)
    | ok l =>
      obtain ⟨rfl, rfl, hll⟩ := hll
      exact ⟨(ne_of_fresh hfresh').symm, hlv.append (hlf.append hll)⟩

/-! ## Releasing and exchanging -/

theorem tidy_of_no_programs (h : L.programs = []) : L.Tidy :=
  ⟨fun p hp => (by rw [h] at hp; cases hp), fun p hp => (by rw [h] at hp; cases hp)⟩

/-- The ledger in which all that lives is a linked program and its stages. -/
def owning (l : Linked) (vText fText : String) (link : Option Nat) (current : Option ProgramId) (links : Nat) : Ledger where
  shaders := [⟨l.fragment, .fragment, fText, true⟩, ⟨l.vertex, .vertex, vText, true⟩]
  programs := [⟨l.program, [l.vertex, l.fragment], link⟩]
  current := current
  links := links

section

variable {l : Linked} {vText fText : String} {link : Option Nat} {current : Option ProgramId} {links : Nat}

theorem mem_live_owning {h : Handle} :
    h ∈ (owning l vText fText link current links).live ↔
      h = .shader l.fragment ∨ h = .shader l.vertex ∨ h = .program l.program := by
  simp [Ledger.live, owning]

theorem owning_tidy (hne : l.vertex ≠ l.fragment) : (owning l vText fText link current links).Tidy := by
  refine ⟨fun p hp s hs => mem_live_owning.2 ?_, fun p hp => ?_⟩
  · rw [List.mem_singleton.1 hp] at hs
    simp only [List.mem_cons, List.not_mem_nil, or_false] at hs
    rcases hs with rfl | rfl
    · exact Or.inr (Or.inl rfl)
    · exact Or.inl rfl
  · rw [List.mem_singleton.1 hp]
    simp [Ledger.stages, Ledger.shader?, owning, hne.symm]

/-- **Releasing all there is leaves nothing.** -/
theorem releasing_leads (hne : l.vertex ≠ l.fragment) :
    Leads (owning l vText fText link current links) (releasing l) { current, links } := by
  refine .deleteProgram (mem_live_owning.2 (Or.inr (Or.inr rfl))) rfl (tidy_of_no_programs ?_) ?_
  · simp [Ledger.dropProgram, owning]
  refine .deleteShader (M := { shaders := [⟨l.fragment, .fragment, fText, true⟩], current, links }) ?_ ?_ ?_
    (tidy_of_no_programs rfl) ?_
  · simp [Ledger.live, Ledger.dropProgram, owning]
  · simp [Ledger.dropProgram, owning]
  · simp [Ledger.dropShader, Ledger.dropProgram, owning, hne.symm]
  refine .deleteShader (List.mem_singleton.2 rfl) (fun p hp => by cases hp) ?_ (tidy_of_no_programs rfl) (.nil _)
  simp [Ledger.dropShader]

/-- The old fragment stage gives way to a new one, so that never are both attached. -/
theorem leads_exchange {f : ShaderId} {text : String} (hne : l.vertex ≠ l.fragment)
    (hf : .shader f ∉ (owning l vText fText link current links).live) {t : Trace} {M : Ledger}
    (ht : Leads (owning { l with fragment := f } vText text link current links) t M) :
    Leads ((owning l vText fText link current links).addShader ⟨f, .fragment, text, true⟩)
      (said (.detachShader l.program l.fragment) () :: said (.deleteShader l.fragment) () ::
        said (.attachShader l.program f) () :: t) M := by
  have hff : f ≠ l.fragment := fun h => hf (mem_live_owning.2 (Or.inl (by rw [h])))
  have hfv : f ≠ l.vertex := fun h => hf (mem_live_owning.2 (Or.inr (Or.inl (by rw [h]))))
  let new : ShaderRecord := ⟨f, .fragment, text, true⟩
  let old : ShaderRecord := ⟨l.fragment, .fragment, fText, true⟩
  let vertex : ShaderRecord := ⟨l.vertex, .vertex, vText, true⟩
  let detached : Ledger := { shaders := [new, old, vertex], programs := [⟨l.program, [l.vertex], link⟩], current, links }
  let dropped : Ledger := { detached with shaders := [new, vertex] }
  have hdetached : detached.Tidy := by
    constructor <;> simp [detached, new, old, vertex, Ledger.live, Ledger.stages, Ledger.shader?, hfv, hne.symm]
  have hdropped : dropped.Tidy := by
    constructor <;> simp [dropped, detached, new, vertex, Ledger.live, Ledger.stages, Ledger.shader?, hfv]
  refine .call (M := detached) ?_ rfl ?_ hdetached ?_
  · simp [Entry.handles, PipelineRequest.handles, mem_live_addShader, mem_live_owning]
  · simp [Ledger.enter, Ledger.enterPipeline, Ledger.onProgram, owning, Ledger.addShader, detached, new, old, vertex, hne]
  refine .deleteShader (M := dropped) ?_ ?_ ?_ hdropped ?_
  · simp [detached, old, Ledger.live]
  · simp [detached, hne.symm]
  · simp [detached, dropped, new, old, vertex, Ledger.dropShader, hff, hne]
  refine .call ?_ rfl ?_ (owning_tidy hfv.symm) ht
  · simp [Entry.handles, PipelineRequest.handles, dropped, detached, new, Ledger.live]
  · simp [Ledger.enter, Ledger.enterPipeline, Ledger.onProgram, owning, dropped, detached, new, vertex]

/-- **An exchange puts the new fragment stage in the place of the old one**, or leaves nothing. -/
theorem Exchanges.leads {f : ShaderId} {text : String} {r : Except BuildError Linked} {u : Trace}
    (h : Slot.Exchanges l f r u) (hne : l.vertex ≠ l.fragment)
    (hf : .shader f ∉ (owning l vText fText link current links).live) :
    match r with
    | .ok l' => l' = { l with fragment := f } ∧ l'.vertex ≠ l'.fragment ∧
      Leads ((owning l vText fText link current links).addShader ⟨f, .fragment, text, true⟩) u
        (owning l' vText text (some (links + 1)) current (links + 1))
    | .error _ => Leads ((owning l vText fText link current links).addShader ⟨f, .fragment, text, true⟩) u
        { current, links } := by
  have hfv : l.vertex ≠ f := fun h => hf (mem_live_owning.2 (Or.inr (Or.inl (by rw [h]))))
  have hlive : ∀ k, ∀ h ∈ [Handle.program l.program],
      h ∈ (owning { l with fragment := f } vText text k current links).live :=
    fun k h hm => mem_live_owning.2 (Or.inr (Or.inr (List.mem_singleton.1 hm)))
  cases h with
  | linked =>
    refine ⟨rfl, hfv, leads_exchange hne hf (.call (hlive link) rfl ?_ (owning_tidy hfv) (.nil _))⟩
    simp [Ledger.enter, Ledger.enterPipeline, Ledger.onProgram, owning]
  | rejected log =>
    refine leads_exchange hne hf (.call (M := owning { l with fragment := f } vText text none current links) (hlive link)
      rfl ?_ (owning_tidy hfv) ?_)
    · simp [Ledger.enter, Ledger.enterPipeline, Ledger.onProgram, owning]
    · exact .call (hlive none) rfl rfl (owning_tidy hfv) (releasing_leads hfv)

end

/-! ## The slot -/

namespace Slot

/-- **What a slot owns.**  All live objects are the slot's; a loaded slot has one program whose last link succeeded, and
attached to it a vertex stage and a fragment stage, in this order.  Its generation is the number of links that
succeeded. -/
structure Owns (s : Slot) (L : Ledger) : Prop where
  links : L.links = s.generation
  named : s.isLoaded = true → s.shaderName.isSome = true
  empty : s.active = none → L.shaders = [] ∧ L.programs = []
  loaded : ∀ l, s.active = some l → l.vertex ≠ l.fragment ∧
    L.programs = [⟨l.program, [l.vertex, l.fragment], some s.generation⟩] ∧
    ∃ text, L.shaders = [⟨l.fragment, .fragment, text, true⟩,
      ⟨l.vertex, .vertex, vertexSource s.recipe.version, true⟩]

variable {s : Slot}

theorem owns_empty (recipe : Recipe) : ({ recipe } : Slot).Owns {} :=
  ⟨rfl, fun h => (by cases h), fun _ => ⟨rfl, rfl⟩, fun _ h => (by cases h)⟩

theorem Owns.eq_owning (h : s.Owns L) {l : Linked} (hl : s.active = some l) :
    ∃ text, L = owning l (vertexSource s.recipe.version) text (some s.generation) L.current L.links := by
  obtain ⟨-, hp, text, hs⟩ := h.loaded l hl
  refine ⟨text, ?_⟩
  rw [owning, ← hs, ← hp]

theorem Owns.eq_empty (h : s.Owns L) (hl : s.active = none) : L = { current := L.current, links := L.links } := by
  obtain ⟨hs, hp⟩ := h.empty hl
  rw [← hs, ← hp]

theorem Owns.tidy (h : s.Owns L) : L.Tidy := by
  cases hl : s.active with
  | none => exact tidy_of_no_programs (h.empty hl).2
  | some l =>
    obtain ⟨text, he⟩ := h.eq_owning hl
    exact he ▸ owning_tidy (h.loaded l hl).1

theorem owns_of_empty {current : Option ProgramId} {links : Nat} (hl : s.active = none) (hg : links = s.generation) :
    s.Owns { current, links } :=
  ⟨hg, fun h => (by rw [isLoaded_of_empty hl] at h; cases h), fun _ => ⟨rfl, rfl⟩,
    fun l h => (by rw [hl] at h; cases h)⟩

theorem owns_of_owning {l : Linked} {text : String} {current : Option ProgramId} {links : Nat} (hl : s.active = some l)
    (hn : s.shaderName.isSome = true) (hg : links = s.generation) (hne : l.vertex ≠ l.fragment) :
    s.Owns (owning l (vertexSource s.recipe.version) text (some links) current links) := by
  refine ⟨hg, fun _ => hn, fun h => (by rw [hl] at h; cases h), fun l' h => ?_⟩
  obtain rfl : l = l' := Option.some.inj (hl ▸ h)
  exact ⟨hne, by rw [← hg]; rfl, text, rfl⟩

/-- **Emptying a slot releases all it owns.** -/
theorem tearing_leads (h : s.Owns L) : ∃ current, Leads L s.tearing { current, links := L.links } := by
  unfold tearing
  cases hl : s.active with
  | none => exact ⟨L.current, (h.eq_empty hl) ▸ .nil _⟩
  | some l =>
    obtain ⟨text, he⟩ := h.eq_owning hl
    refine ⟨none, ?_⟩
    rw [he]
    have hne := (h.loaded l hl).1
    exact .call (fun _ h => by cases h) rfl rfl (owning_tidy hne) (releasing_leads hne)

/-- How an attempt to fill a slot with a shader ends: the slot owns nothing, or a program with a new fragment stage. -/
inductive Settled (s : Slot) (files : Files.Tree) (name : String) (L : Ledger) :
    Except BuildError Unit × Slot → Trace → Prop
  | emptied {t : Trace} (e : BuildError) (current : Option ProgramId) :
    Leads L t { current, links := L.links } →
      Settled s files name L (.error e, { s with active := none, shaderName := some name }) t
  | filled {t : Trace} {l : Linked} {text : String} (current : Option ProgramId) :
    s.recipe.fragmentSource files name = .ok text → l.vertex ≠ l.fragment →
      Leads L t (owning l (vertexSource s.recipe.version) text (some (L.links + 1)) current (L.links + 1)) →
        Settled s files name L
          (.ok (), { s with active := some l, shaderName := some name, generation := s.generation + 1 }) t

theorem Settled.owns {files : Files.Tree} {name : String} {r : Except BuildError Unit × Slot} {t : Trace}
    (h : Settled s files name L r t) (hs : s.Owns L) : ∃ M, Leads L t M ∧ r.2.Owns M := by
  cases h with
  | emptied e current hl => exact ⟨_, hl, owns_of_empty rfl hs.links⟩
  | filled current _ hne hl =>
    refine ⟨_, hl, ?_⟩
    exact owns_of_owning (s := { s with active := _, shaderName := _, generation := _ }) rfl rfl (by rw [hs.links]) hne

theorem build_leads {recipe : Recipe} {files : Files.Tree} {name vText : String} {r : Except BuildError Linked}
    {t : Trace} (h : FromSource recipe files name (Builds vText) r t) (hL : L.Tidy) (hf : L.Along Fresh t) :
    match r with
    | .ok l => l.vertex ≠ l.fragment ∧
      ∃ text, recipe.fragmentSource files name = .ok text ∧ Leads L t (joined L l vText text)
    | .error _ => Leads L t L := by
  cases h with
  | unread _ => exact .nil L
  | read hr hb =>
    have hl := hb.leads hL hf
    cases r with
    | error e => exact hl
    | ok l => exact ⟨hl.1, _, hr, hl.2⟩

theorem buildFragment_leads {recipe : Recipe} {files : Files.Tree} {name : String} {r : Except BuildError ShaderId}
    {t : Trace} (h : FromSource recipe files name (Compiles .fragment) r t) (hL : L.Tidy) (hf : L.Along Fresh t) :
    match r with
    | .ok id => .shader id ∉ L.live ∧
      ∃ text, recipe.fragmentSource files name = .ok text ∧ Leads L t (L.addShader ⟨id, .fragment, text, true⟩)
    | .error _ => Leads L t L := by
  cases h with
  | unread _ => exact .nil L
  | read hr hc =>
    have hl := hc.leads hL hf
    cases r with
    | error e => exact hl
    | ok id => exact ⟨hl.1, _, hr, hl.2⟩

/-- **A load releases what the slot owned and makes it own what was built.** -/
theorem Loads.settled {files : Files.Tree} {name : String} {r : Except BuildError Unit × Slot} {t : Trace}
    (h : Loads s files name r t) (hs : s.Owns L) (hf : L.Along Fresh t) : Settled s files name L r t := by
  obtain ⟨current, hempty⟩ := tearing_leads hs
  have htidy : ({ current, links := L.links } : Ledger).Tidy := tidy_of_no_programs rfl
  cases h with
  | failed hb =>
    rw [Ledger.along_append, hempty.after_eq] at hf
    exact .emptied _ current (hempty.append (build_leads hb htidy hf.2))
  | loaded hb =>
    rw [Ledger.along_append, hempty.after_eq] at hf
    obtain ⟨hne, text, hr, hl⟩ := build_leads hb htidy hf.2
    exact .filled current hr hne (hempty.append hl)

/-- **A swap exchanges the fragment stage that the slot owns, or releases all of it.** -/
theorem Swaps.settled {files : Files.Tree} {name : String} {l : Linked} {r : Except BuildError Unit × Slot} {t : Trace}
    (h : Swaps s files name l r t) (hn : s.shaderName = some name) (hl : s.active = some l) (hs : s.Owns L)
    (hf : L.Along Fresh t) : Settled s files name L r t := by
  obtain ⟨old, he⟩ := hs.eq_owning hl
  have hne := (hs.loaded l hl).1
  have htidy := hs.tidy
  rw [he] at hf htidy ⊢
  obtain ⟨recipe, active, shaderName, generation⟩ := s
  obtain rfl : shaderName = some name := hn
  cases h with
  | unbuilt hb =>
    rw [Ledger.along_append] at hf
    exact .emptied _ L.current ((buildFragment_leads hb htidy hf.1).append (releasing_leads hne))
  | unlinked hb hx =>
    rw [Ledger.along_append] at hf
    obtain ⟨hfresh, text, -, hc⟩ := buildFragment_leads hb htidy hf.1
    exact .emptied _ L.current (hc.append (Exchanges.leads hx hne hfresh))
  | swapped hb hx =>
    rw [Ledger.along_append] at hf
    obtain ⟨hfresh, text, hr, hc⟩ := buildFragment_leads hb htidy hf.1
    obtain ⟨-, hne', hx⟩ := Exchanges.leads hx hne hfresh
    exact .filled L.current hr hne' (hc.append hx)

/-- **Every operation keeps to the discipline, and the slot owns what lives after it.** -/
theorem Performs.owns {files : Files.Tree} {op : Operation} {r : Except BuildError Unit × Slot} {t : Trace}
    (h : Performs s files op r t) (hs : s.Owns L) (hf : L.Along Fresh t) : ∃ M, Leads L t M ∧ r.2.Owns M := by
  cases h with
  | load hl => exact (hl.settled hs hf).owns hs
  | reloadUnnamed _ => exact ⟨L, .nil L, hs⟩
  | reload _ hl => exact (hl.settled hs hf).owns hs
  | swapUnnamed _ => exact ⟨L, .nil L, hs⟩
  | swapEmpty _ _ hl => exact (hl.settled hs hf).owns hs
  | swap hn hl hx => exact (hx.settled hn hl hs hf).owns hs
  | teardown =>
    obtain ⟨current, hempty⟩ := tearing_leads hs
    exact ⟨_, hempty, owns_of_empty rfl hs.links⟩
  | bindEmpty _ => exact ⟨L, .nil L, hs⟩
  | bind hl =>
    obtain ⟨-, hp, -⟩ := hs.loaded _ hl
    refine ⟨_, .call (fun h hm => ?_) rfl rfl (hs.tidy.congr rfl rfl) (.nil _), hs.links, hs.named, hs.empty, hs.loaded⟩
    rw [List.mem_singleton.1 hm, Ledger.mem_live_program, hp]
    exact ⟨_, List.mem_singleton.2 rfl, rfl⟩
  | unbind =>
    exact ⟨_, .call (fun _ h => by cases h) rfl rfl (hs.tidy.congr rfl rfl) (.nil _), hs.links, hs.named, hs.empty,
      hs.loaded⟩

theorem Performs.active_of_error {files : Files.Tree} {op : Operation} {e : BuildError} {s' : Slot} {t : Trace}
    (h : Performs s files op (.error e, s') t) (hs : s.shaderName = none → s.active = none) : s'.active = none := by
  cases h with
  | load hl => cases hl; rfl
  | reloadUnnamed hn => exact hs hn
  | reload _ hl => cases hl; rfl
  | swapUnnamed hn => exact hs hn
  | swapEmpty _ _ hl => cases hl; rfl
  | swap _ _ hx => cases hx <;> rfl

end Slot

end Program
end LiveShader
