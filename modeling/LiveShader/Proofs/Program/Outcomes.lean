import LiveShader.Proofs.Program.Lifetime
import LiveShader.Proofs.Program.Tracking
/-!
# Proofs.Program.Outcomes — what was done with a slot decides its name, its generation and its results

A slot remembers of its history the name of the last load and the number of builds that succeeded (`Heeds`).  What an
operation returns is decided by that and by whether it leaves the slot loaded (`Turns`), so both hold after any history
(`performEach_outcomes`).
-/
namespace LiveShader
namespace Program

open Machine Source
open Ledger (Along Fresh Leads along_append)

variable {σ : Type} {t : Trace} {L : Ledger}

/-! ## Builds fail for reasons of their own -/

/-- A result that is not the refusal of a slot without a name. -/
def Chosen {α : Type} (r : Except BuildError α) : Prop := r ≠ .error .noShaderSelected

theorem Compiles.chosen {stage : Stage} {source : String} {r : Except BuildError ShaderId}
    (h : Compiles stage source r t) : Chosen r := by
  cases h <;> simp [Chosen]

theorem Links.chosen {v f : ShaderId} {r : Except BuildError Linked} (h : Links v f r t) : Chosen r := by
  cases h <;> simp [Chosen]

theorem Chosen.of_error {α β : Type} {e : BuildError} (h : Chosen (.error e : Except BuildError α)) :
    Chosen (.error e : Except BuildError β) := by
  intro he
  obtain rfl := Except.error.inj he
  exact h rfl

theorem Builds.chosen {vText fText : String} {r : Except BuildError Linked} (h : Builds vText fText r t) : Chosen r := by
  cases h with
  | noVertex hc => exact hc.chosen.of_error
  | noFragment _ hc => exact hc.chosen.of_error
  | staged _ _ hl => exact hl.chosen

theorem FromSource.chosen {α : Type} {recipe : Recipe} {files : Files.Tree} {name : String}
    {script : String → Except BuildError α → Trace → Prop} {r : Except BuildError α}
    (h : FromSource recipe files name script r t)
    (hs : ∀ {text : String} {r : Except BuildError α} {t : Trace}, script text r t → Chosen r) : Chosen r := by
  cases h with
  | unread _ => simp [Chosen]
  | read _ h => exact hs h

namespace Slot

/-! ## One operation -/

/-- Operations that can fail. -/
def Operation.builds : Operation → Bool
  | .load _ | .reload | .hotSwap => true
  | .teardown | .bind | .unbind => false

def Operation.loads? : Operation → Option String
  | .load name => some name
  | _ => none

/-- A build that succeeded. -/
def succeeds (p : Operation × Except BuildError Unit) : Bool := p.1.builds && p.2.isOk

/-- **What an operation makes of a slot.** -/
structure Turns (s : Slot) (op : Operation) (r : Except BuildError Unit × Slot) : Prop where
  named : r.2.shaderName = op.loads?.or s.shaderName
  counted : r.2.generation = s.generation + if succeeds (op, r.1) then 1 else 0
  refused : r.1 = .error .noShaderSelected ↔ (op = .reload ∨ op = .hotSwap) ∧ s.shaderName = none
  settled : op.builds = true → (r.1 = .ok () ↔ r.2.isLoaded = true)
  unnamed : r.2.shaderName = none → r.2.isLoaded = false

variable {s s' : Slot} {files : Files.Tree} {name : String} {r : Except BuildError Unit × Slot} {op : Operation}

theorem Exchanges.chosen {l : Linked} {f : ShaderId} {r : Except BuildError Linked} (h : Exchanges l f r t) :
    Chosen r := by
  cases h <;> simp [Chosen]

theorem Loads.chosen (h : Loads s files name r t) : Chosen r.1 := by
  cases h with
  | failed hb => exact (hb.chosen Builds.chosen).of_error
  | loaded _ => simp [Chosen]

theorem Swaps.chosen {l : Linked} (h : Swaps s files name l r t) : Chosen r.1 := by
  cases h with
  | unbuilt hb => exact (hb.chosen Compiles.chosen).of_error
  | unlinked _ hx => exact hx.chosen.of_error
  | swapped _ _ => simp [Chosen]

/-- A load, asked for by whichever operation. -/
theorem Loads.turns (h : Loads s files name r t) (hop : op.builds = true) (hname : op.loads?.or s.shaderName = some name) :
    Turns s op r := by
  have hchosen : r.1 ≠ .error .noShaderSelected := h.chosen
  have hnamed : ¬((op = .reload ∨ op = .hotSwap) ∧ s.shaderName = none) := by
    rintro ⟨rfl | rfl, hn⟩
    · simp [Operation.loads?, hn] at hname
    · simp [Operation.loads?, hn] at hname
  cases h with
  | failed _ =>
    refine ⟨hname.symm, ?_, ?_, ?_, ?_⟩
    · simp [succeeds, Except.isOk, Except.toBool]
    · simp [hchosen, hnamed]
    · simp [isLoaded]
    · simp
  | loaded _ =>
    refine ⟨hname.symm, ?_, ?_, ?_, ?_⟩
    · simp [succeeds, hop, Except.isOk, Except.toBool]
    · simp [hnamed]
    · simp [isLoaded]
    · simp

theorem Swaps.turns {l : Linked} (h : Swaps s files name l r t) (hn : s.shaderName = some name) : Turns s .hotSwap r := by
  have hchosen : r.1 ≠ .error .noShaderSelected := h.chosen
  cases h with
  | unbuilt _ | unlinked _ _ =>
    refine ⟨rfl, ?_, ?_, ?_, ?_⟩
    · simp [succeeds, Except.isOk, Except.toBool]
    · simp [hchosen, hn]
    · simp [isLoaded]
    · simp [hn]
  | swapped _ _ =>
    refine ⟨rfl, ?_, ?_, ?_, ?_⟩
    · simp [succeeds, Operation.builds, Except.isOk, Except.toBool]
    · simp [hn]
    · simp [isLoaded]
    · simp [hn]

/-- An operation that is refused, or has nothing to do. -/
theorem Turns.same (hs : s.shaderName = none → s.isLoaded = false) {e : Except BuildError Unit} (hname : op.loads? = none)
    (hcounted : succeeds (op, e) = false)
    (hrefused : e = .error .noShaderSelected ↔ (op = .reload ∨ op = .hotSwap) ∧ s.shaderName = none)
    (hsettled : op.builds = true → (e = .ok () ↔ s.isLoaded = true)) : Turns s op (e, s) := by
  refine ⟨?_, ?_, hrefused, hsettled, hs⟩
  · rw [hname]
    rfl
  · rw [if_neg (by simp [hcounted])]
    rfl

/-- **Every operation turns a slot as it should**, if a slot without a name is empty. -/
theorem Performs.turns (h : Performs s files op r t) (hs : s.shaderName = none → s.isLoaded = false) : Turns s op r := by
  cases h with
  | load hl => exact hl.turns rfl rfl
  | reload hn hl => exact hl.turns rfl hn
  | swapEmpty hn _ hl => exact hl.turns rfl hn
  | swap hn _ hx => exact hx.turns hn
  | reloadUnnamed hn => exact .same hs rfl rfl (by simp [hn]) (by simp [hs hn])
  | swapUnnamed hn => exact .same hs rfl rfl (by simp [hn]) (by simp [hs hn])
  | bindEmpty _ | bind _ | unbind => exact .same hs rfl rfl (by simp) (by simp [Operation.builds])
  | teardown => exact ⟨rfl, rfl, by simp, by simp [Operation.builds], fun _ => rfl⟩

/-- **A swap of a loaded slot keeps program and vertex stage**, and the new fragment stage is not the old one if the
driver hands out no handle that is live. -/
theorem Performs.exchanged {l : Linked} (h : Performs s files .hotSwap (.ok (), s') t) (hl : s.active = some l) :
    ∃ fragment, s'.active = some { l with fragment } ∧
      ∀ L : Ledger, s.Owns L → L.Along Fresh t → fragment ≠ l.fragment := by
  cases h with
  | swapEmpty _ hempty _ =>
    rw [hl] at hempty
    cases hempty
  | swap _ hl' hx =>
    rw [hl] at hl'
    obtain rfl := Option.some.inj hl'
    cases hx with
    | @swapped f _ u _ hb hx =>
      cases hx
      refine ⟨f, rfl, fun L hs hf => ?_⟩
      rw [along_append] at hf
      obtain ⟨hfresh, -⟩ := buildFragment_leads hb hs.tidy hf.1
      obtain ⟨text, he⟩ := hs.eq_owning hl
      rintro rfl
      refine hfresh ?_
      rw [he]
      exact mem_live_owning.2 (.inl rfl)

theorem hotSwap_of_empty (hl : s.active = none) (hn : s.shaderName = some name) :
    (s.hotSwap : Run σ (Except BuildError Unit × Slot)) = s.load name := by
  unfold hotSwap
  rw [hl, hn]

theorem perform_of_unnamed (hop : op = .reload ∨ op = .hotSwap) (hn : s.shaderName = none) :
    (s.perform op : Run σ (Except BuildError Unit × Slot)) = pure (.error .noShaderSelected, s) := by
  rcases hop with rfl | rfl
  · show s.reload = _
    unfold reload
    rw [hn]
  · show s.hotSwap = _
    unfold hotSwap
    rw [hn]

/-! ## Whole histories -/

/-- What was done with a slot and what it returned, in order. -/
abbrev History := List (Operation × Except BuildError Unit)

/-- The name of the last load. -/
def History.lastLoaded (history : History) : Option String := (history.filterMap (·.1.loads?)).getLast?

theorem History.lastLoaded_concat (history : History) (p : Operation × Except BuildError Unit) :
    lastLoaded (history ++ [p]) = p.1.loads?.or history.lastLoaded := by
  unfold lastLoaded
  rw [List.filterMap_append]
  cases h : p.1.loads? with
  | none => simp [h]
  | some name => simp [h]

theorem History.lastLoaded_eq_none (history : History) :
    history.lastLoaded = none ↔ ∀ name result, (Operation.load name, result) ∉ history := by
  unfold lastLoaded
  rw [List.getLast?_eq_none_iff, List.filterMap_eq_nil_iff]
  constructor
  · intro h name result hmem
    cases h _ hmem
  · rintro h ⟨op, result⟩ hmem
    cases op with
    | load name => exact absurd hmem (h name result)
    | _ => rfl

/-- **What a slot remembers of its history.** -/
structure Heeds (history : History) (s : Slot) : Prop where
  named : s.shaderName = history.lastLoaded
  counted : s.generation = history.countP succeeds
  unnamed : s.shaderName = none → s.isLoaded = false

theorem Turns.heeds {history : History} (h : Turns s op r) (hs : Heeds history s) :
    Heeds (history ++ [(op, r.1)]) r.2 := by
  refine ⟨?_, ?_, h.unnamed⟩
  · rw [h.named, hs.named, History.lastLoaded_concat]
  · rw [h.counted, hs.counted, List.countP_append, List.countP_singleton]

/-- Uses a slot, and notes what every operation returned. -/
def performEach (s : Slot) : List (Interlude σ × Operation) → Run σ (History × Slot)
  | [] => return ([], s)
  | (change, op) :: steps => do
    interlude change
    let (result, s) ← s.perform op
    let (history, s) ← performEach s steps
    return ((op, result) :: history, s)

theorem performAll_eq : ∀ (s : Slot) (steps : List (Interlude σ × Operation)),
    s.performAll steps = do return (← s.performEach steps).2
  | s, [] => rfl
  | s, (change, op) :: steps => by
    simp only [performAll, performEach, bind_assoc, pure_bind, performAll_eq]

/-- **However a slot is used, it heeds its history and keeps track of its links.** -/
theorem performEach_follows : ∀ (steps : List (Interlude σ × Operation)) (s : Slot) (files : Files.Tree),
    (s.performEach steps).Follows files fun p t _ =>
      (∀ history, Heeds history s → Heeds (history ++ p.1) p.2) ∧ ∀ L : Ledger, s.Tracks L → p.2.Tracks (L.after t)
  | [], s, files => by
    refine .pure ⟨fun history hs => ?_, fun L hs => hs⟩
    rw [List.append_nil]
    exact hs
  | (change, op) :: steps, s, files => by
    refine .interlude (.bind (perform_follows s _ op) fun r t f hp => ?_)
    refine .bind (performEach_follows steps r.2 f) fun p u g hrest => .pure ⟨fun history hs => ?_, fun L hs => ?_⟩
    · have hnext := (hp.turns hs.unnamed).heeds hs
      rw [List.append_cons]
      exact hrest.1 _ hnext
    · rw [List.append_nil, Ledger.after_append]
      exact hrest.2 _ (hp.tracks hs)

/-- **What comes next after a history**, in some world: a build succeeds just when it leaves the slot loaded, and only
then the generation moves; what is refused makes no call; a swap that succeeds exchanges one stage alone. -/
structure Lawful (history : History) (s : Slot) (host : Host σ) (now : World σ) : Prop where
  settled : ∀ op : Operation, op.builds = true →
    (((s.perform op).on host now).1.1 = .ok () ↔ ((s.perform op).on host now).1.2.isLoaded = true)
  counted : ∀ op, ((s.perform op).on host now).1.2.generation =
    s.generation + if succeeds (op, ((s.perform op).on host now).1.1) then 1 else 0
  refused : ∀ op, ((s.perform op).on host now).1.1 = .error .noShaderSelected ↔
    (op = .reload ∨ op = .hotSwap) ∧ ∀ name result, (.load name, result) ∉ history
  untouched : ∀ op, ((s.perform op).on host now).1.1 = .error .noShaderSelected →
    (s.perform op).on host now = ((.error .noShaderSelected, s), now)
  exchanged : ∀ l, s.active = some l → (s.hotSwap.on host now).1.1 = .ok () →
    ∃ fragment, (s.hotSwap.on host now).1.2.active = some { l with fragment } ∧
      (Along Fresh {} (s.hotSwap.on host now).2.trace → fragment ≠ l.fragment)
  reloaded : ∀ name, s.active = none → s.shaderName = some name → s.hotSwap.on host now = (s.load name).on host now

theorem Heeds.lawful {history : History} (hs : Heeds history s) (host : Host σ) (now : World σ)
    (howns : Along Fresh {} now.trace → s.Owns (ledger now.trace)) : Lawful history s host now := by
  have hnext : ∀ op, ∃ u, ((s.perform op).on host now).2.trace = now.trace ++ u ∧
      Performs s now.files op ((s.perform op).on host now).1 u := by
    intro op
    obtain ⟨u, hu, hp⟩ := perform_follows s now.files op host now rfl
    exact ⟨u, hu, hp⟩
  have hturns : ∀ op, Turns s op ((s.perform op).on host now).1 := by
    intro op
    obtain ⟨u, -, hp⟩ := hnext op
    exact hp.turns hs.unnamed
  constructor
  · exact fun op => (hturns op).settled
  · exact fun op => (hturns op).counted
  · intro op
    rw [(hturns op).refused, hs.named, History.lastLoaded_eq_none]
  · intro op hrefused
    obtain ⟨hop, hn⟩ := (hturns op).refused.1 hrefused
    rw [perform_of_unnamed hop hn]
    rfl
  · intro l hl hok
    obtain ⟨u, hu, hp⟩ := hnext .hotSwap
    have hp : Performs s now.files .hotSwap (.ok (), (s.hotSwap.on host now).1.2) u := by
      rw [← hok]
      exact hp
    obtain ⟨fragment, hactive, hother⟩ := hp.exchanged hl
    refine ⟨fragment, hactive, fun hfresh => ?_⟩
    have hfresh : Along Fresh {} (now.trace ++ u) := hu ▸ hfresh
    rw [along_append] at hfresh
    exact hother _ (howns hfresh.1) hfresh.2
  · intro name hl hn
    rw [hotSwap_of_empty hl hn]

/-- **What was done with a slot decides its name, its generation and its results.**  Whatever a new slot was used for,
its name is that of the last load, its generation is the number of builds that succeeded and of all links, and
whatever comes next is lawful, on whatever files; all that is asked of the driver, and for one part alone, is that it
hands out no handle that is live. -/
theorem performEach_outcomes (recipe : Recipe) (host : Host σ) (state : σ) (files : Files.Tree)
    (steps : List (Interlude σ × Operation)) {history : History} {s : Slot} {world : World σ}
    (hrun : (performEach { recipe } steps).on host { host := state, files } = ((history, s), world)) :
    s.shaderName = history.lastLoaded ∧ s.generation = history.countP succeeds ∧
    s.generation = (ledger world.trace).links ∧
    ∀ change : Interlude σ, Lawful history s host ((interlude change).on host world).2 := by
  obtain ⟨t, ht, hheeds, htracks⟩ := performEach_follows steps { recipe } files host { host := state, files } rfl
  obtain ⟨t', ht', howns⟩ := performAll_follows steps { recipe } files host { host := state, files } rfl
  have hall : (performAll { recipe } steps).on host { host := state, files } = (s, world) := by
    rw [performAll_eq, Run.on_bind, hrun]
    rfl
  rw [hrun] at ht hheeds htracks
  rw [hall] at ht' howns
  have ht : world.trace = t := ht
  have ht' : world.trace = t' := ht'
  subst ht
  subst ht'
  have hs : Heeds history s := hheeds [] ⟨rfl, rfl, fun _ => rfl⟩
  have hlinks : s.Tracks (ledger world.trace) := htracks {} rfl
  refine ⟨hs.named, hs.counted, hlinks.links.symm, fun change => hs.lawful host _ fun hfresh => ?_⟩
  obtain ⟨M, hM, howned⟩ := howns {} (owns_empty recipe) hfresh
  rw [trace_interlude, ledger, hM.after_eq]
  exact howned

/-- A swap without a name and a load that finds no file, and then `swaps`. -/
def attempts : List (Interlude Simulator.State × Operation) := ({}, .hotSwap) :: ({}, .load "b") :: swaps

@[irreducible] def attempted : (History × Slot) × World Simulator.State :=
  (performEach { recipe := blankRecipe } attempts).on Simulator.host { host := {}, files := blankShader }

theorem performEach_outcomes_attempted :
    let next := attempted.1.2.hotSwap.on Simulator.host attempted.2
    (attempted.1.1.map (·.2.isOk) = [false, false, true, true, false, true] ∧ attempted.1.2.isLoaded = true ∧
      next.1.1.isOk = true ∧ Along Fresh {} next.2.trace) ∧
    attempted.1.2.shaderName = attempted.1.1.lastLoaded ∧ attempted.1.2.generation = attempted.1.1.countP succeeds ∧
    attempted.1.2.generation = (ledger attempted.2.trace).links ∧
    ∀ change : Interlude Simulator.State,
      Lawful attempted.1.1 attempted.1.2 Simulator.host ((interlude change).on Simulator.host attempted.2).2 := by
  have hrun : (performEach { recipe := blankRecipe } attempts).on Simulator.host { host := {}, files := blankShader } =
      ((attempted.1.1, attempted.1.2), attempted.2) := by
    rw [Prod.eta, attempted]
  have hresults : attempted.1.1.map (·.2.isOk) = [false, false, true, true, false, true] := by decide +kernel
  have hfresh : Along Fresh {} (attempted.1.2.hotSwap.on Simulator.host attempted.2).2.trace := by decide +kernel
  exact ⟨⟨hresults, by decide +kernel, by decide +kernel, hfresh⟩,
    performEach_outcomes blankRecipe Simulator.host {} blankShader attempts hrun⟩

end Slot
end Program
end LiveShader
