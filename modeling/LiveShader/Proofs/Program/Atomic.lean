import LiveShader.Proofs.Machine.Undoing
import LiveShader.Proofs.Program.Lifetime
import LiveShader.Proofs.Source.Assembly
/-!
# Proofs.Program.Atomic — a build is all or nothing

A source that cannot be assembled leaves the world as it was, its host included (`build_of_error`).  After that a build
opens a scope for each stage and one for the program, and what fails in a scope closes it and those around it
(`Builds.undone`); what does not fail adds a linked program with its stages (`Builds.joins`).
-/
namespace LiveShader
namespace Program

open Machine Source
open Machine.Ledger (Fresh Restores along_append deletions mem_live_addShader)

variable {L : Ledger} {t : Trace}

/-! ## Scopes -/

section

variable {stage : Stage} {source : String} {id : ShaderId} {e : BuildError}

theorem Compiles.makes (h : Compiles stage source (.ok id) t) : Makes (.shader id) t := by
  cases h
  exact ⟨rfl, rfl⟩

theorem Compiles.after_eq (h : Compiles stage source (.ok id) t) (hf : L.Along Fresh t) :
    .shader id ∉ L.live ∧ L.after t = L.addShader ⟨id, stage, source, true⟩ := by
  cases h
  have hid : .shader id ∉ L.live := hf.1 _ rfl
  exact ⟨hid, enter_compile hid stage source "" false true⟩

theorem Compiles.undone (h : Compiles stage source (.error e) t) :
    Unwinds t ∧ ∀ L : Ledger, L.Along Fresh t → Restores L t := by
  cases h with
  | refused message => exact ⟨.of_none rfl rfl, fun L _ => .of_none rfl rfl⟩
  | rejected id log =>
    refine ⟨.of_one rfl rfl, fun L hf => ?_⟩
    have hid : .shader id ∉ L.live := hf.1 _ rfl
    refine .of_one (h := .shader id) ?_ rfl hid
    show ((L.addShader ⟨id, stage, "", false⟩).enter (said (.compileShader id source) false)).dropShader id = L
    rw [enter_compile hid]
    exact Ledger.dropShader_addShader (x := ⟨id, stage, source, false⟩) hid

end

section

variable {v f : ShaderId} {l : Linked} {e : BuildError}

theorem Links.makes (h : Links v f (.ok l) t) : l.vertex = v ∧ l.fragment = f ∧ Makes (.program l.program) t := by
  cases h
  exact ⟨rfl, rfl, rfl, rfl⟩

/-- Two stages attached to a new program, in order. -/
theorem after_attach {p : ProgramId} (hp : .program p ∉ L.live) (v f : ShaderId) :
    L.after [said .createProgram (.ok p), said (.attachShader p v) (), said (.attachShader p f) ()] =
      L.addProgram ⟨p, [v, f], none⟩ := by
  show ((L.addProgram ⟨p, [], none⟩).enter (said (.attachShader p v) ())).enter (said (.attachShader p f) ()) = _
  rw [enter_attach hp, enter_attach hp]
  rfl

theorem Links.after_eq (h : Links v f (.ok l) t) (hf : L.Along Fresh t) : .program l.program ∉ L.live ∧
    L.after t = { L.addProgram ⟨l.program, [v, f], some (L.links + 1)⟩ with links := L.links + 1 } := by
  cases h with
  | linked p =>
    have hp : .program p ∉ L.live := hf.1 _ rfl
    refine ⟨hp, ?_⟩
    show (L.after [said .createProgram (.ok p), said (.attachShader p v) (), said (.attachShader p f) ()]).enter
      (said (.linkProgram p) true) = _
    rw [after_attach hp]
    show ({ Ledger.onProgram _ p _ with links := _ } : Ledger) = _
    rw [Ledger.onProgram_addProgram (x := ⟨p, [v, f], none⟩) hp]
    rfl

/-- **Linking that fails** closes the scope of the program, then those of the stages. -/
theorem Links.undone (h : Links v f (.error e) t) :
    ∃ u, t = (u ++ [said (.deleteShader f) ()]) ++ [said (.deleteShader v) ()] ∧ Unwinds u ∧
      ∀ L : Ledger, L.Along Fresh u → Restores L u := by
  cases h with
  | refused message =>
    exact ⟨[said .createProgram (.error message)], rfl, .of_none rfl rfl, fun L _ => .of_none rfl rfl⟩
  | rejected p log =>
    refine ⟨[said .createProgram (.ok p), said (.attachShader p v) (), said (.attachShader p f) (),
      said (.linkProgram p) false, said (.programLog p) log, said (.deleteProgram p) ()], rfl, .of_one rfl rfl,
      fun L hf => ?_⟩
    have hp : .program p ∉ L.live := hf.1 _ rfl
    refine .of_one (h := .program p) ?_ rfl hp
    show ((L.after [said .createProgram (.ok p), said (.attachShader p v) (), said (.attachShader p f) ()]).enter
      (said (.linkProgram p) false)).dropProgram p = L
    rw [after_attach hp]
    show (Ledger.onProgram _ p _).dropProgram p = L
    rw [Ledger.onProgram_addProgram (x := ⟨p, [v, f], none⟩) hp]
    exact Ledger.dropProgram_addProgram (x := ⟨p, [v, f], none⟩) hp

end

/-! ## Builds -/

/-- What is left of a build that failed: nothing, and all it made was deleted once, a program before its stages. -/
structure Undone (L : Ledger) (t : Trace) : Prop where
  unwinds : Unwinds t
  after_eq : L.Along Fresh t → L.after t = L
  once : L.Along Fresh t → ∀ pre e post h, t = pre ++ e :: post → e.creates? = some h → deletions h post = 1

theorem Undone.of_restores (hu : Unwinds t) (hr : L.Along Fresh t → Restores L t) : Undone L t :=
  ⟨hu, fun hf => (hr hf).after_eq, fun hf _ _ _ _ hsplit hc => (hr hf).deletions_of_created hu hsplit hc⟩

/-- What a build adds that succeeded: a linked program with a vertex and a fragment stage, all new, in this order. -/
structure Joins (L : Ledger) (l : Linked) (vText fText : String) (t : Trace) : Prop where
  created_eq : created t = [.shader l.vertex, .shader l.fragment, .program l.program]
  deleted_eq : deleted t = []
  new : L.Along Fresh t → (created t).Nodup ∧ ∀ h ∈ created t, h ∉ L.live
  after_eq : L.Along Fresh t → L.after t = joined L l vText fText

section

variable {vText fText : String}

/-- **A build that fails closes every scope it opened.** -/
theorem Builds.undone {e : BuildError} (h : Builds vText fText (.error e) t) (L : Ledger) : Undone L t := by
  cases h with
  | noVertex hc => exact .of_restores hc.undone.1 (hc.undone.2 L)
  | noFragment hv hc =>
    obtain ⟨hu, hr⟩ := hc.undone
    refine .of_restores (hu.within hv.makes) fun hf => ?_
    rw [along_append] at hf
    obtain ⟨hnew, hafter⟩ := hv.after_eq hf.1
    rw [hafter, along_append] at hf
    exact .within (x := ⟨_, .vertex, vText, true⟩) hv.makes hnew hafter (hr _ hf.2.1)
  | @staged v f _ t u w hv hc hl =>
    obtain ⟨w, rfl, hu, hr⟩ := hl.undone
    rw [← List.append_assoc u]
    refine .of_restores ((hu.within hc.makes).within hv.makes) fun hf => ?_
    rw [along_append, along_append] at hf
    obtain ⟨hnew, hafter⟩ := hv.after_eq hf.1
    rw [hafter, along_append] at hf
    obtain ⟨hnew', hafter'⟩ := hc.after_eq hf.2.1.1
    rw [hafter', along_append] at hf
    exact .within (x := ⟨v, .vertex, vText, true⟩) hv.makes hnew hafter
      (.within (x := ⟨f, .fragment, fText, true⟩) hc.makes hnew' hafter' (hr _ hf.2.1.2.1))

/-- A program and two stages that were new one after the other are three new objects. -/
theorem new_objects {v f : ShaderId} {p : ProgramId} (hv : .shader v ∉ L.live)
    (hf : .shader f ∉ (L.addShader ⟨v, .vertex, vText, true⟩).live)
    (hp : .program p ∉ (staged L v f vText fText).live) :
    [Handle.shader v, .shader f, .program p].Nodup ∧ ∀ h ∈ [Handle.shader v, .shader f, .program p], h ∉ L.live := by
  have hne : f ≠ v := ne_of_fresh hf
  have hf' : .shader f ∉ L.live := fun h => hf (mem_live_addShader.2 (.inr h))
  have hp' : .program p ∉ L.live := fun h => hp (mem_live_addShader.2 (.inr (mem_live_addShader.2 (.inr h))))
  refine ⟨by simp [hne.symm], fun h hh => ?_⟩
  simp only [List.mem_cons, List.not_mem_nil, or_false] at hh
  rcases hh with rfl | rfl | rfl
  · exact hv
  · exact hf'
  · exact hp'

/-- **A build that does not fail** deletes nothing and adds a linked program with its stages. -/
theorem Builds.joins {l : Linked} (h : Builds vText fText (.ok l) t) (L : Ledger) : Joins L l vText fText t := by
  cases h with
  | @staged v f _ t u w hv hc hl =>
    obtain ⟨rfl, rfl, hmakes⟩ := hl.makes
    have hcreated : created (t ++ (u ++ w)) = [.shader l.vertex, .shader l.fragment, .program l.program] := by
      rw [created_append, created_append, hv.makes.created_eq, hc.makes.created_eq, hmakes.created_eq]
      rfl
    have hdeleted : deleted (t ++ (u ++ w)) = [] := by
      rw [deleted_append, deleted_append, hv.makes.deleted_eq, hc.makes.deleted_eq, hmakes.deleted_eq]
      rfl
    have hadded : L.Along Fresh (t ++ (u ++ w)) →
        ((created (t ++ (u ++ w))).Nodup ∧ ∀ h ∈ created (t ++ (u ++ w)), h ∉ L.live) ∧
          L.after (t ++ (u ++ w)) = joined L l vText fText := by
      intro hf
      rw [along_append, along_append] at hf
      obtain ⟨hnew, hafter⟩ := hv.after_eq hf.1
      rw [hafter] at hf
      obtain ⟨hnew', hafter'⟩ := hc.after_eq hf.2.1
      rw [hafter'] at hf
      obtain ⟨hnew'', hafter''⟩ := hl.after_eq hf.2.2
      refine ⟨?_, ?_⟩
      · rw [hcreated]
        exact new_objects hnew hnew' hnew''
      · rw [Ledger.after_append, Ledger.after_append, hafter, hafter', hafter'']
        rfl
    exact ⟨hcreated, hdeleted, fun hf => (hadded hf).1, fun hf => (hadded hf).2⟩

end

/-! ## Sources -/

section

variable {σ : Type} {recipe : Recipe} {name : String} {host : Host σ} {world : World σ}

/-- With the source at hand, the script is the one for it. -/
theorem FromSource.of_read {α : Type} {files : Files.Tree} {script : String → Except BuildError α → Trace → Prop}
    {r : Except BuildError α} {text : String} (h : FromSource recipe files name script r t)
    (hread : recipe.fragmentSource files name = .ok text) : script text r t := by
  cases h with
  | unread hfailed =>
    rw [hread] at hfailed
    cases hfailed
  | read hsource hscript =>
    rw [hread] at hsource
    cases hsource
    exact hscript

theorem assemble_of_error {e : SourceError} (h : recipe.fragmentSource world.files name = .error e) :
    (withFiles fun files => recipe.assemble files name).on host world = (.error e, world) := by
  have hassembled : recipe.assemble world.files name = (.error e, world.files) := by
    unfold Recipe.assemble
    rw [h]
  show ((recipe.assemble world.files name).1, { world with files := (recipe.assemble world.files name).2 }) = _
  rw [hassembled]

/-- **A source that cannot be assembled leaves the world as it was**, and the host is not asked for anything. -/
theorem build_of_error {e : SourceError} (h : recipe.fragmentSource world.files name = .error e) :
    (build recipe name).on host world = (.error (.source e), world) := by
  unfold build
  rw [Run.on_bind, assemble_of_error h]
  rfl

theorem buildFragment_of_error {e : SourceError} (h : recipe.fragmentSource world.files name = .error e) :
    (buildFragment recipe name).on host world = (.error (.source e), world) := by
  unfold buildFragment
  rw [Run.on_bind, assemble_of_error h]
  rfl

end

/-! ## All or nothing -/

section

variable {σ : Type}

/-- **A build is all or nothing**, whatever the host answers.  A source that cannot be assembled leaves the world as it
was: no call is made and no file written.  With the source of the shader at hand, a build that fails, and one of a
fragment stage alone, deletes all it made, the latest first and so a program before its stages; and where the handles it
is given are new, every object is then what it was, and each that was made was deleted exactly once.  One that does not
fail deletes nothing and adds a linked program with its stages, the vertex stage attached first, made from their
sources, or that one stage. -/
theorem build_atomic (recipe : Recipe) (name : String) (host : Host σ) (world : World σ) :
    (∀ e, recipe.fragmentSource world.files name = .error e →
      (build recipe name).on host world = (.error (.source e), world) ∧
      (buildFragment recipe name).on host world = (.error (.source e), world)) ∧
    ∀ text, recipe.fragmentSource world.files name = .ok text →
      (∃ t, ((build recipe name).on host world).2.trace = world.trace ++ t ∧
        (∀ e, ((build recipe name).on host world).1 = .error e → ∀ L, Undone L t) ∧
        ∀ l, ((build recipe name).on host world).1 = .ok l → ∀ L, Joins L l (vertexSource recipe.version) text t) ∧
      ∃ t, ((buildFragment recipe name).on host world).2.trace = world.trace ++ t ∧
        (∀ e, ((buildFragment recipe name).on host world).1 = .error e → ∀ L, Undone L t) ∧
        ∀ id, ((buildFragment recipe name).on host world).1 = .ok id → Makes (.shader id) t ∧ ∀ L : Ledger,
          L.Along Fresh t → .shader id ∉ L.live ∧ L.after t = L.addShader ⟨id, .fragment, text, true⟩ := by
  refine ⟨fun e h => ⟨build_of_error h, buildFragment_of_error h⟩, fun text h => ⟨?_, ?_⟩⟩
  · obtain ⟨t, ht, hscript, -⟩ := build_follows recipe world.files name host world rfl
    have hbuilds := hscript.of_read h
    refine ⟨t, ht, fun e he L => ?_, fun l hl L => ?_⟩
    · rw [he] at hbuilds
      exact hbuilds.undone L
    · rw [hl] at hbuilds
      exact hbuilds.joins L
  · obtain ⟨t, ht, hscript, -⟩ := buildFragment_follows recipe world.files name host world rfl
    have hcompiles := hscript.of_read h
    refine ⟨t, ht, fun e he L => ?_, fun id hid => ?_⟩
    · rw [he] at hcompiles
      exact .of_restores hcompiles.undone.1 (hcompiles.undone.2 L)
    · rw [hid] at hcompiles
      exact ⟨hcompiles.makes, fun L hf => hcompiles.after_eq hf⟩

end

open Slot (blankRecipe blankShader)

/-- A driver that refuses one link, and a directory with one shader. -/
@[irreducible] def linkRefusing : World Simulator.State :=
  { host := ({} : Simulator.State).arm .link 1, files := blankShader }

/-- A build there, and one where the link succeeds. -/
@[irreducible] def refusedBuild : Except BuildError Linked × World Simulator.State :=
  (build blankRecipe "a").on Simulator.host linkRefusing

@[irreducible] def linkedBuild : Except BuildError Linked × World Simulator.State :=
  (build blankRecipe "a").on Simulator.host { host := {}, files := blankShader }

theorem build_atomic_refused : ∃ text, blankRecipe.fragmentSource blankShader "a" = .ok text ∧
    (build blankRecipe "b").on Simulator.host linkRefusing =
      (.error (.source (.shaderNotFound "b" "./b.frag")), linkRefusing) ∧
    (refusedBuild.1 = .error (.link "error: program 3 failed to link") ∧
      deleted refusedBuild.2.trace = [.program ⟨3⟩, .shader ⟨2⟩, .shader ⟨1⟩] ∧ ledger refusedBuild.2.trace = {}) ∧
    linkedBuild.1 = .ok ⟨⟨3⟩, ⟨1⟩, ⟨2⟩⟩ ∧
      ledger linkedBuild.2.trace = joined {} ⟨⟨3⟩, ⟨1⟩, ⟨2⟩⟩ (vertexSource blankRecipe.version) text := by
  obtain ⟨text, htext⟩ : ∃ text, blankRecipe.fragmentSource blankShader "a" = .ok text :=
    exists_ok_of_isSome (by decide +kernel)
  have hrefused : blankRecipe.fragmentSource linkRefusing.files "a" = .ok text := by rw [linkRefusing, htext]
  have hmissing : blankRecipe.fragmentSource linkRefusing.files "b" = .error (.shaderNotFound "b" "./b.frag") := by
    decide +kernel
  have hfailed : refusedBuild.1 = .error (.link "error: program 3 failed to link") := by decide +kernel
  have hbuilt : linkedBuild.1 = .ok ⟨⟨3⟩, ⟨1⟩, ⟨2⟩⟩ := by decide +kernel
  have hfresh : Ledger.Along Fresh {} refusedBuild.2.trace := by decide +kernel
  have hfresh' : Ledger.Along Fresh {} linkedBuild.2.trace := by decide +kernel
  have hcreated : created refusedBuild.2.trace = [.shader ⟨1⟩, .shader ⟨2⟩, .program ⟨3⟩] := by decide +kernel
  obtain ⟨t, ht, hundone, -⟩ := ((build_atomic blankRecipe "a" Simulator.host linkRefusing).2 text hrefused).1
  obtain ⟨u, hu, -, hjoins⟩ :=
    ((build_atomic blankRecipe "a" Simulator.host { host := {}, files := blankShader }).2 text htext).1
  rw [← refusedBuild] at ht hundone
  rw [← linkedBuild] at hu hjoins
  have hno : linkRefusing.trace = [] := by rw [linkRefusing]; rfl
  rw [hno, List.nil_append] at ht
  have hu : linkedBuild.2.trace = u := hu
  subst ht hu
  have hback := hundone _ hfailed {}
  refine ⟨text, htext, (build_atomic blankRecipe "b" Simulator.host linkRefusing).1 _ hmissing |>.1, ⟨hfailed, ?_, ?_⟩,
    hbuilt, (hjoins _ hbuilt {}).after_eq hfresh'⟩
  · rw [hback.unwinds.latest_first, hcreated]
    rfl
  · exact hback.after_eq hfresh

end Program
end LiveShader
