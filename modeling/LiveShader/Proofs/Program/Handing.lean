import LiveShader.Proofs.Machine.Canvas
import LiveShader.Proofs.Program.Script
/-!
# Proofs.Program.Handing — which sources the driver is handed

A build hands over the fragment source it was given, once, unless it fails before (`Builds.handed`).  So a load hands
over the assembled source and no other (`Loads.read`), and one without a source makes nothing (`Loads.unread`).
-/
namespace LiveShader
namespace Program

open Machine Source

/-! ## Sources in a trace -/

/-- The source that an entry hands over, if it is for a shader of the stage. -/
def handedBy (stage : Stage) (L : Ledger) : Entry → List String
  | .call ⟨.pipeline (.compileShader s source), _⟩ =>
    if (L.shader? s).any (·.stage == stage) then [source] else []
  | _ => []

/-- **The sources that a trace hands over** for shaders of a stage, after a ledger. -/
def handed (stage : Stage) (L : Ledger) : Trace → List String
  | [] => []
  | e :: t => handedBy stage L e ++ handed stage (L.enter e) t

variable {stage other : Stage} {L : Ledger} {source vertexText fragmentText : String} {t : Trace}

theorem handed_append (stage : Stage) : ∀ (t u : Trace) (L : Ledger),
    handed stage L (t ++ u) = handed stage L t ++ handed stage (L.after t) u
  | [], u, L => rfl
  | e :: t, u, L => by
    rw [List.cons_append, handed, handed, handed_append stage t u, List.append_assoc]
    rfl

/-- The failures of a build that come after its fragment source was handed over. -/
def BuildError.isLate : BuildError → Bool
  | .compile .fragment _ | .link _ | .create .program _ => true
  | _ => false

/-- Whether a build with this result came so far as to hand its fragment source over. -/
def handsOver {α : Type} : Except BuildError α → Bool
  | .ok _ => true
  | .error e => e.isLate

/-! ## Builds -/

theorem Compiles.handed_other {r : Except BuildError ShaderId} (h : Compiles other source r t) (hne : other ≠ stage) :
    handed stage L t = [] := by
  have hnone : ∀ id, ((L.addShader ⟨id, other, "", false⟩).shader? id).any (·.stage == stage) = false := by
    intro id
    rw [Ledger.shader?_addShader, if_pos rfl]
    simpa using hne
  cases h with
  | refused _ => rfl
  | compiled id | rejected id _ => simp [handed, handedBy, Ledger.enter, Ledger.enterPipeline, hnone]

theorem Compiles.handed {r : Except BuildError ShaderId} (h : Compiles .fragment source r t) :
    handed .fragment L t = if handsOver r then [source] else [] := by
  have hsome : ∀ id, ((L.addShader ⟨id, .fragment, "", false⟩).shader? id).any (·.stage == .fragment) = true := by
    intro id
    rw [Ledger.shader?_addShader, if_pos rfl]
    rfl
  cases h with
  | refused _ => rfl
  | compiled id | rejected id _ =>
    simp [Program.handed, handedBy, Ledger.enter, Ledger.enterPipeline, hsome, handsOver, BuildError.isLate]

theorem Links.handed {v f : ShaderId} {r : Except BuildError Linked} (h : Links v f r t) : handed stage L t = [] := by
  cases h <;> rfl

/-- **A build hands over its fragment source once**, if it comes so far. -/
theorem Builds.handed {r : Except BuildError Linked} (h : Builds vertexText fragmentText r t) :
    handed .fragment L t = if handsOver r then [fragmentText] else [] := by
  cases h with
  | noVertex hv =>
    rw [hv.handed_other (by decide)]
    cases hv <;> rfl
  | noFragment hv hf =>
    rw [handed_append, handed_append, hv.handed_other (by decide), hf.handed]
    cases hf <;> rfl
  | staged hv hf hl =>
    rw [handed_append, handed_append, hv.handed_other (by decide), hf.handed, hl.handed]
    cases hl <;> rfl

/-- A build fails for other reasons than the want of a source. -/
theorem Builds.ne_source {r : Except BuildError Linked} (h : Builds vertexText fragmentText r t) (e : SourceError) :
    r ≠ .error (.source e) := by
  rintro rfl
  cases h with
  | noVertex hv => cases hv
  | noFragment _ hf => cases hf
  | staged _ _ hl => cases hl

/-! ## Loads -/

namespace Slot

variable {s : Slot} {files : Files.Tree} {name text : String} {r : Except BuildError Unit × Slot}

theorem tearing_handed (s : Slot) : handed stage L s.tearing = [] := by
  unfold tearing
  cases s.active <;> rfl

theorem tearing_makes (s : Slot) : ∀ x ∈ s.tearing, x.makes? = none := by
  unfold tearing
  cases s.active with
  | none => simp
  | some l => simp [releasing, Entry.makes?, PipelineRequest.creates?]

/-- A load empties the slot and then builds. -/
theorem Loads.fromSource (h : Loads s files name r t) : ∃ (built : Except BuildError Linked) (u : Trace),
    FromSource s.recipe files name (Builds (vertexSource s.recipe.version)) built u ∧ t = s.tearing ++ u ∧
      r.1 = built.map fun _ => () := by
  cases h with
  | failed hfrom => exact ⟨_, _, hfrom, rfl, rfl⟩
  | loaded hfrom => exact ⟨_, _, hfrom, rfl, rfl⟩

/-- **A load with a source** hands it over, once, if it comes so far, and does not fail for want of one. -/
theorem Loads.read (h : Loads s files name r t) (hsource : s.recipe.fragmentSource files name = .ok text) :
    handed .fragment L t = (if handsOver r.1 then [text] else []) ∧ ∀ e, r.1 ≠ .error (.source e) := by
  obtain ⟨built, u, hfrom, rfl, hr⟩ := h.fromSource
  rw [hr]
  cases hfrom with
  | unread herror =>
    rw [hsource] at herror
    cases herror
  | read htext hbuilds =>
    obtain rfl := Except.ok.inj (hsource.symm.trans htext)
    refine ⟨?_, fun e he => ?_⟩
    · rw [handed_append, tearing_handed, hbuilds.handed]
      cases built <;> rfl
    · cases built with
      | ok l => cases he
      | error e' =>
        obtain rfl : e' = .source e := Except.error.inj he
        exact hbuilds.ne_source e rfl

/-- **A load without a source** fails with the reason, and makes nothing. -/
theorem Loads.unread {e : SourceError} (h : Loads s files name r t)
    (hsource : s.recipe.fragmentSource files name = .error e) :
    r.1 = .error (.source e) ∧ ∀ x ∈ t, x.makes? = none := by
  obtain ⟨built, u, hfrom, rfl, hr⟩ := h.fromSource
  cases hfrom with
  | unread herror =>
    obtain rfl := Except.error.inj (hsource.symm.trans herror)
    rw [List.append_nil]
    exact ⟨hr, tearing_makes s⟩
  | read htext _ =>
    rw [hsource] at htext
    cases htext

end Slot
end Program
end LiveShader
