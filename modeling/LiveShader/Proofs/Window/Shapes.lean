import LiveShader.Proofs.Uniform.Declared
import LiveShader.Proofs.Window.Session
/-!
# Proofs.Window.Shapes — a session keeps to the shapes that the harness declares

A viewer is `Shapely` when its table holds values of the declared shapes, has refused none, and has only locations that
the driver was last heard to give.  Every step keeps this, and what it uploads goes to the location of a uniform of the
value's shape; so whatever a session does, it uploads to each name by the call for the type that the harness declares.
-/
namespace LiveShader
namespace Window

open Machine
open LiveShader.Uniform (harnessShape? glslName_inj)
open LiveShader.Uniform.Table (Assigns Syncs Resolves uploads)

/-! ## Questions about locations -/

/-- The answer to a question about the location of a name. -/
def answer? (name : String) : Entry → Option (Option Nat)
  | .call ⟨.pipeline (.uniformLocation _ asked), answer⟩ => if asked = name then some answer else none
  | _ => none

/-- What was last answered about the location of a name. -/
def answered (past : Trace) (name : String) : Option (Option Nat) := (past.filterMap (answer? name)).getLast?

/-- An entry that is no question about a location. -/
def Silent (e : Entry) : Prop := ∀ name, answer? name e = none

theorem answered_append {t : Trace} (h : ∀ e ∈ t, Silent e) (past : Trace) (name : String) :
    answered (past ++ t) name = answered past name := by
  have hnone : ∀ e ∈ t, answer? name e = none := fun e he => h e he name
  unfold answered
  rw [List.filterMap_append, List.filterMap_eq_nil_iff.2 hnone, List.append_nil]

theorem answered_concat (past : Trace) (p : ProgramId) (asked name : String) (answer : Option Nat) :
    answered (past ++ [said (.uniformLocation p asked) answer]) name =
      if asked = name then some answer else answered past name := by
  unfold answered
  rw [List.filterMap_append]
  by_cases h : asked = name
  · simp [answer?, h]
  · simp [answer?, h]

/-- An upload goes to the location that was last answered for a uniform of the value's shape. -/
def Fits (past : Trace) : Entry → Prop
  | .call ⟨.pipeline (.setUniform n value), _⟩ =>
    ∃ u : Uniform, answered past u.glslName = some (some n) ∧ value.shape = u.shape
  | _ => True

theorem fits_append {t : Trace} (h : ∀ e ∈ t, Silent e) (past : Trace) (e : Entry) :
    Fits (past ++ t) e ↔ Fits past e := by
  unfold Fits
  split
  · simp only [answered_append h]
  · exact Iff.rfl

theorem throughout_of_silent {past t : Trace} (h : ∀ e ∈ t, Silent e) (hfits : ∀ e ∈ t, Fits past e) :
    Throughout Fits past t := by
  rintro pre e post rfl
  exact (fits_append (fun x hx => h x (List.mem_append_left _ hx)) past e).2
    (hfits e (List.mem_append_right _ List.mem_cons_self))

/-- An entry that neither asks for a location nor uploads to one. -/
def isApart : Entry → Bool
  | .call ⟨.pipeline (.uniformLocation _ _), _⟩ => false
  | .call ⟨.pipeline (.setUniform _ _), _⟩ => false
  | _ => true

theorem silent_of_apart {e : Entry} (h : isApart e = true) : Silent e := by
  intro name
  unfold answer?
  split
  · cases h
  · rfl

theorem fits_of_apart {e : Entry} (h : isApart e = true) (past : Trace) : Fits past e := by
  unfold Fits
  split
  · cases h
  · trivial

theorem isApart_of_isQuiet {e : Entry} (h : isQuiet e = true) : isApart e = true := by
  match e with
  | .event _ => rfl
  | .call ⟨.draw _, _⟩ => rfl
  | .call ⟨.screen _, _⟩ => rfl
  | .call ⟨.pipeline _, _⟩ => cases h

theorem isApart_of_isBuildingCall {e : Entry} (h : Program.isBuildingCall e = true) : isApart e = true := by
  unfold isApart
  split
  · cases h
  · cases h
  · rfl

/-! ## Tables -/

/-- A location that a table has for a uniform is the one that was last answered for its name. -/
def Asked (past : Trace) (t : Uniform.Table) : Prop :=
  ∀ (u : Uniform) n, (t.location u).index? = some n → answered past u.glslName = some (some n)

section

variable {past q : Trace} {t t' : Uniform.Table} {p : ProgramId} {us : List Uniform}

theorem Asked.silent (h : Asked past t) (hq : ∀ e ∈ q, Silent e) (hl : ∀ u, t'.location u = t.location u) :
    Asked (past ++ q) t' := by
  intro u n hn
  rw [answered_append hq]
  exact h u n (hl u ▸ hn)

/-- A location that is placed is the one that was just answered. -/
theorem Asked.place (h : Asked past t) (p : ProgramId) (u : Uniform) (answer : Option Nat) :
    Asked (past ++ [said (.uniformLocation p u.glslName) answer]) (t.place u (.ofAnswer answer)) := by
  intro v n hn
  rw [Uniform.Table.location_place] at hn
  rw [answered_concat]
  by_cases huv : u = v
  · rw [if_pos huv] at hn
    rw [if_pos (congrArg _ huv)]
    exact congrArg some (Uniform.Location.answer_of_index? hn)
  · rw [if_neg huv] at hn
    rw [if_neg fun hname => huv (glslName_inj hname)]
    exact h v n hn

theorem Asked.resolves (hr : Resolves p us t t' q) (h : Asked past t) : Asked (past ++ q) t' := by
  induction hr generalizing past with
  | nil t => rwa [List.append_nil]
  | @cons u us t t' q answer _ ih =>
    rw [List.append_cons]
    exact ih (h.place p u answer)

theorem Asked.syncs {s : Program.Slot} (hs : Syncs t s t' q) (h : Asked past t) : Asked (past ++ q) t' := by
  cases hs with
  | current _ _ | idle _ _ => rwa [List.append_nil]
  | @renewed l placed q _ hr =>
    have hplaced : Asked (past ++ q) placed := h.resolves hr
    exact hplaced
  | emptied _ _ =>
    intro u n hn
    unfold Uniform.Table.location at hn
    rw [Uniform.Table.slot_invalidate] at hn
    cases hn

end

namespace Viewer

/-! ## Steps -/

/-- **A viewer that keeps to the shapes**, after a past. -/
structure Shapely (past : Trace) (v : Viewer) : Prop where
  shaped : v.uniforms.Shaped
  unrefused : v.uniforms.refused = none
  asked : Asked past v.uniforms

/-- A viewer that keeps to the shapes goes on to one that does, and uploads what fits. -/
def Conforms (v w : Viewer) (t : Trace) : Prop :=
  ∀ past, Shapely past v → Throughout Fits past t ∧ Shapely (past ++ t) w

section

variable {u v w : Viewer} {s t past : Trace}

theorem Conforms.trans (hs : Conforms u v s) (ht : Conforms v w t) : Conforms u w (s ++ t) := by
  intro past hu
  obtain ⟨hfits, hv⟩ := hs past hu
  obtain ⟨hfits', hw⟩ := ht (past ++ s) hv
  rw [← List.append_assoc]
  exact ⟨hfits.append hfits', hw⟩

/-- What neither asks for a location nor uploads conforms, when the values that it sets are those of the uniforms. -/
theorem Conforms.apart {values : List (Uniform × Uniform.Value)} (hv : Assigns values)
    (hu : w.uniforms = v.uniforms.setAll values) (ht : ∀ e ∈ t, isApart e = true) : Conforms v w t := by
  intro past h
  refine ⟨throughout_of_silent (fun e he => silent_of_apart (ht e he)) fun e he => fits_of_apart (ht e he) past, ?_⟩
  obtain ⟨-, -, hlocation⟩ := Uniform.Table.setAll_keeps values v.uniforms
  refine ⟨?_, ?_, ?_⟩
  · rw [hu]
    exact h.shaped.setAll hv.shaped
  · rw [hu]
    exact (h.shaped.takes hv.shaped).refused h.unrefused
  · rw [hu]
    exact h.asked.silent (fun e he => silent_of_apart (ht e he)) hlocation

theorem Conforms.same (hu : w.uniforms = v.uniforms) (ht : ∀ e ∈ t, isApart e = true) : Conforms v w t := by
  have hnone : Assigns [] := ⟨fun _ hp => (by cases hp), List.nodup_nil⟩
  exact .apart hnone hu ht

theorem isApart_of_quiet (h : t.all isQuiet = true) : ∀ e ∈ t, isApart e = true :=
  fun e he => isApart_of_isQuiet (List.all_eq_true.1 h e he)

theorem Resizes.conforms {size : Size} (h : Resizes v size w t) : Conforms v w t := by
  cases h with
  | ignored _ => exact .same rfl fun _ he => by cases he
  | @taken quad t _ hmade =>
    generalize hvalues : (ViewProjection.ofSize .standard size).values = values
    have hassigns : Assigns values := hvalues ▸ camera_assigns _
    refine .apart hassigns rfl fun e he => ?_
    rcases List.mem_cons.1 he with rfl | he
    · rfl
    · rcases List.mem_cons.1 he with rfl | he
      · rfl
      · rcases List.mem_append.1 he with hdropping | hmaking
        · exact isApart_of_quiet v.dropping_quiet e hdropping
        · exact isApart_of_quiet hmade.quiet e hmaking

theorem Conforms.syncs {slot : Program.Slot} (hs : Syncs v.uniforms slot w.uniforms t) : Conforms v w t := by
  intro past h
  obtain ⟨-, hvalue, -⟩ := hs.keeps (L := {})
  refine ⟨.of_all fun e he past => ?_, fun u => ?_, ?_, h.asked.syncs hs⟩
  · obtain ⟨p, name, answer, rfl⟩ := hs.queries e he
    trivial
  · rw [hvalue]
    exact h.shaped u
  · rw [hs.refused]
    exact h.unrefused

/-- **What is painted fits**: it holds the values of the uniforms, at locations that were answered for them. -/
theorem Conforms.painting (v : Viewer) : Conforms v v v.painting := by
  intro past h
  have hentries : ∀ e ∈ v.painting, Silent e ∧ Fits past e := by
    obtain hblank | ⟨quad, l, -, -, hpainting⟩ := painting_cases v
    · rw [hblank]
      exact fun _ he => by cases he
    · rw [hpainting]
      simp only [List.mem_cons, List.mem_append, Uniform.Table.mem_uploads, Quad.painting, List.not_mem_nil, or_false]
      rintro e (rfl | ⟨u, -, n, hn, rfl⟩ | (rfl | rfl | rfl) | rfl)
      · exact ⟨fun _ => rfl, trivial⟩
      · exact ⟨fun _ => rfl, u, h.asked u n hn, h.shaped u⟩
      · exact ⟨fun _ => rfl, trivial⟩
      · exact ⟨fun _ => rfl, trivial⟩
      · exact ⟨fun _ => rfl, trivial⟩
      · exact ⟨fun _ => rfl, trivial⟩
  have hsilent : ∀ e ∈ v.painting, Silent e := fun e he => (hentries e he).1
  exact ⟨throughout_of_silent hsilent fun e he => (hentries e he).2, h.shaped, h.unrefused,
    h.asked.silent hsilent fun _ => rfl⟩

theorem Renders.conforms (h : Renders v w t) : Conforms v w t := by
  cases h with
  | @rendered now table q swapped codes hs =>
    have hassigns : Assigns (v.valuesAt now) := frameValues_assigns _ _
    generalize v.valuesAt now = values at hassigns hs
    have hset : Conforms v { v with uniforms := v.uniforms.setAll values } [showed .now now] :=
      .apart hassigns rfl (isApart_of_quiet rfl)
    have hsynced : Conforms { v with uniforms := v.uniforms.setAll values } (v.rendered now table) q := .syncs hs
    have hcleared : Conforms (v.rendered now table) (v.rendered now table) [drew .clear ()] :=
      .same rfl (isApart_of_quiet rfl)
    have hshown : Conforms (v.rendered now table) (v.rendered now table)
        [showed .swapBuffers swapped, drew .drainErrors codes] := .same rfl (isApart_of_quiet rfl)
    exact hset.trans (hsynced.trans (hcleared.trans ((Conforms.painting _).trans hshown)))

/-- **Every step conforms.** -/
theorem Step.conforms (h : Step v w t) : Conforms v w t := by
  cases h with
  | still _ hu _ ht _ => exact .same hu (isApart_of_quiet ht.quiet)
  | operated hop hperformed =>
    exact .same rfl fun e he => isApart_of_isBuildingCall (List.all_eq_true.1 (hperformed.all_building hop) e he)
  | resized hoffer hr =>
    have hoffered : Conforms v v _ := .same rfl (isApart_of_quiet hoffer.quiet)
    exact hoffered.trans hr.conforms
  | rendered hr => exact hr.conforms

theorem Steps.conforms (h : Steps v w t) : Conforms v w t := by
  induction h with
  | nil v => exact .same rfl fun _ he => by cases he
  | cons h _ ih => exact h.conforms.trans ih

theorem Opened.shapely {order : Uniform.Order} (h : Opened order v) : Shapely [] v := by
  refine ⟨?_, ?_, fun u n hn => ?_⟩
  · rw [h.uniforms]
    exact Uniform.Table.shaped_initial order
  · rw [h.uniforms]
    rfl
  · rw [h.uniforms, Uniform.Table.location, Uniform.Table.slot_initial] at hn
    cases hn

end

/-! ## Sessions -/

section

variable {σ : Type}

/-- **A viewer that is shown keeps to the shapes**, and all that was uploaded fits. -/
theorem session_conforms (o : Options) (order : Uniform.Order) (turns : List (Turn σ)) (happenings : List (Happening σ))
    (files : Files.Tree) :
    (session o order turns happenings).Follows files fun r t _ => ∀ p, r = .ok p →
      Throughout Fits [] t ∧ Shapely t p.1 := by
  refine (session_steps o order turns happenings files).mono fun r t _ h p hp => ?_
  obtain ⟨v, pre, s, rfl, hinert, -, hopened, hsteps⟩ := h p hp
  have hconforms : Conforms v p.1 (pre ++ s) :=
    (Conforms.same rfl (isApart_of_quiet hinert.quiet)).trans hsteps.conforms
  exact hconforms [] hopened.shapely

/-- What a viewer and the trace up to some moment show: all shapes are those that the harness declares. -/
structure Declared (v : Viewer) (trace : Trace) : Prop where
  /-- Every slot has the shape of its uniform's initial value. -/
  slots : v.uniforms.Shaped
  /-- Every value so far was accepted. -/
  unrefused : v.uniforms.refused = none
  /-- So are the values of the next frame, whenever it comes, and of the next size. -/
  frame : ∀ now, v.uniforms.Takes (v.valuesAt now)
  camera : ∀ size, v.uniforms.Takes (ViewProjection.ofSize .standard size).values
  /-- Every upload went to the location that was last answered for the name of a uniform, by the call for the type that
  the harness declares for this name. -/
  uploads : ∀ pre n value post, trace = pre ++ said (.setUniform n value) () :: post →
    ∃ u : Uniform, answered pre u.glslName = some (some n) ∧ harnessShape? u.glslName = some value.shape ∧
      value.shape = u.shape ∧
      ∃ numbers : List String, numbers.length = value.shape.call.numbers ∧
        Log.callLines ⟨.pipeline (.setUniform n value), ()⟩ = [.upload n
          ("gl.uniform " ++ toString n ++ " " ++ (value.shape.call.name ++ " " ++ " ".intercalate numbers))]

/-- **Shapes never drift from the harness**, whatever a session did and whatever the driver answered. -/
theorem session_declared (o : Options) (order : Uniform.Order) (turns : List (Turn σ)) (happenings : List (Happening σ))
    (host : Host σ) (state : σ) (files : Files.Tree) {v : Viewer} {left : Bool} {world : World σ}
    (hrun : (session o order turns happenings).on host { host := state, files } = (.ok (v, left), world)) :
    Declared v world.trace := by
  obtain ⟨past, hpast, hsession⟩ := session_conforms o order turns happenings files host { host := state, files } rfl
  rw [hrun] at hpast hsession
  have hpast : world.trace = past := hpast
  subst hpast
  obtain ⟨hfits, hshapely⟩ := hsession _ rfl
  refine ⟨hshapely.shaped, hshapely.unrefused, fun now => ?_, fun size => ?_, ?_⟩
  · exact hshapely.shaped.takes (frameValues_assigns _ _).shaped
  · exact hshapely.shaped.takes (camera_assigns _).shaped
  · intro pre n value post hsplit
    obtain ⟨u, hanswered, hshape⟩ := hfits pre _ post hsplit
    obtain ⟨numbers, hnumbers, htext⟩ := Uniform.uploadText_eq value
    refine ⟨u, hanswered, ?_, hshape, numbers, hnumbers, ?_⟩
    · rw [hshape]
      exact Uniform.harnessShape?_glslName u
    · rw [← htext]
      rfl

end

def isUpload : Entry → Bool
  | .call ⟨.pipeline (.setUniform _ _), _⟩ => true
  | _ => false

theorem session_declared_shown : ∃ v, shown.1 = .ok (v, false) ∧ v.programs.isLoaded = true ∧
    shown.2.trace.any isUpload = true ∧ Declared v shown.2.trace := by
  have hrun : (session { store := { root := "." } } .declared [.load "a"] swapBetween).on timeHost
      { host := { locationBase := 1 }, files := Program.Slot.blankShader } = (shown.1, shown.2) := by
    rw [Prod.eta, shown]
  have hstate : shown.1.toOption.any (fun p => p.1.programs.isLoaded && p.2 == false) = true := by decide +kernel
  have huploads : shown.2.trace.any isUpload = true := by decide +kernel
  cases hshown : shown.1 with
  | error e =>
    rw [hshown] at hstate
    cases hstate
  | ok p =>
    obtain ⟨v, left⟩ := p
    rw [hshown] at hrun hstate
    simp only [Except.toOption, Option.any_some, Bool.and_eq_true, beq_iff_eq] at hstate
    obtain ⟨hloaded, rfl⟩ := hstate
    exact ⟨v, rfl, hloaded, huploads, session_declared _ _ _ _ _ _ _ hrun⟩

end Viewer
end Window
end LiveShader
