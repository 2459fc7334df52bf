import LiveShader.Proofs.Program.Lifetime
/-!
# Proofs.Program.Agreement — a hot swap and a reload come to the same

On a driver that makes every object and whose compile and link statuses depend on sources alone, a program whose
fragment stage was exchanged cannot be told from one built anew, but by its handles; and where one of them fails so
does the other, for the same reason.  Both are compared with one verdict on the sources (`Compiler.verdict`).
-/
namespace LiveShader
namespace Program

open Machine Source
open Ledger (Along Fresh Leads along_append)

/-- What decides whether a stage compiles, and whether stages link, given in the order of attachment. -/
structure Compiler where
  accepts : Stage → String → Bool
  joins : List (Stage × String) → Bool

/-- An error without the text that the driver adds. -/
def BuildError.withoutLog : BuildError → BuildError
  | .compile stage _ => .compile stage ""
  | .link _ => .link ""
  | e => e

namespace Compiler

def parts (L : Ledger) (p : ProgramRecord) : List (Stage × String) := (L.stages p).map fun x => (x.stage, x.source)

/-- Every object is made, and statuses are as the compiler has it. -/
def Answers (c : Compiler) (L : Ledger) : (r : PipelineRequest) → r.Answer → Prop
  | .createShader _, made => made.isOk = true
  | .createProgram, made => made.isOk = true
  | .compileShader id source, status => ∀ x ∈ L.shaders, x.id = id → status = c.accepts x.stage source
  | .linkProgram p, status => ∀ x ∈ L.programs, x.id = p → status = c.joins (parts L x)
  | _, _ => True

/-- Handles are fresh and answers the compiler's. -/
def Decides (c : Compiler) (L : Ledger) (e : Entry) : Prop :=
  Fresh L e ∧
    match e with
    | .call ⟨.pipeline r, a⟩ => c.Answers L r a
    | _ => True

instance Answers.decidable (c : Compiler) (L : Ledger) : ∀ (r : PipelineRequest) (a : r.Answer), Decidable (c.Answers L r a)
  | .createShader _, made => inferInstanceAs (Decidable (made.isOk = true))
  | .createProgram, made => inferInstanceAs (Decidable (made.isOk = true))
  | .compileShader id source, (status : Bool) =>
    inferInstanceAs (Decidable (∀ x ∈ L.shaders, x.id = id → status = c.accepts x.stage source))
  | .linkProgram p, (status : Bool) =>
    inferInstanceAs (Decidable (∀ x ∈ L.programs, x.id = p → status = c.joins (parts L x)))
  | .shaderLog _, _ | .deleteShader _, _ | .attachShader _ _, _ | .detachShader _ _, _ | .programLog _, _
  | .deleteProgram _, _ | .useProgram _, _ | .uniformLocation _ _, _ | .setUniform _ _, _ => isTrue trivial

instance Decides.decidable (c : Compiler) (L : Ledger) : ∀ e, Decidable (c.Decides L e)
  | .event _ => inferInstanceAs (Decidable (Fresh L _ ∧ True))
  | .call ⟨.draw _, _⟩ => inferInstanceAs (Decidable (Fresh L _ ∧ True))
  | .call ⟨.screen _, _⟩ => inferInstanceAs (Decidable (Fresh L _ ∧ True))
  | .call ⟨.pipeline r, a⟩ => inferInstanceAs (Decidable (Fresh L _ ∧ c.Answers L r a))

/-- What comes of two sources. -/
def judge (c : Compiler) (vText fText : String) : Except BuildError Unit :=
  if c.accepts .fragment fText = false then .error (.compile .fragment "")
  else if c.joins [(.vertex, vText), (.fragment, fText)] = false then .error (.link "")
  else .ok ()

def verdict (c : Compiler) (recipe : Recipe) (files : Files.Tree) (name : String) : Except BuildError Unit :=
  match recipe.fragmentSource files name with
  | .error e => .error (.source e)
  | .ok text => c.judge (vertexSource recipe.version) text

variable {c : Compiler} {L : Ledger}

theorem fresh_of_decides {t : Trace} (h : Along c.Decides L t) : Along Fresh L t := by
  rw [Ledger.along_iff] at h ⊢
  exact fun pre e post hs => (h pre e post hs).1

/-- Stages that compiled are such as the compiler accepts. -/
def Vouches (c : Compiler) (L : Ledger) : Prop :=
  ∀ x ∈ L.shaders, x.compiled = true → c.accepts x.stage x.source = true

theorem vouches_enter {e : Entry} (hL : c.Vouches L) (he : c.Decides L e) : c.Vouches (L.enter e) := by
  match e with
  | .event _ => exact hL
  | .call ⟨.draw _, _⟩ => exact hL
  | .call ⟨.screen _, _⟩ => exact hL
  | .call ⟨.pipeline r, a⟩ =>
    cases r with
    | createShader stage =>
      cases a with
      | error m => exact hL
      | ok id =>
        intro x hx hc
        rcases List.mem_cons.1 hx with rfl | hx
        · cases hc
        · exact hL x hx hc
    | compileShader id source =>
      intro x hx hc
      obtain ⟨y, hy, rfl⟩ := List.mem_map.1 hx
      by_cases hid : y.id = id
      · rw [if_pos hid] at hc ⊢
        exact (he.2 y hy hid).symm.trans hc
      · rw [if_neg hid] at hc ⊢
        exact hL y hy hc
    | deleteShader id => exact fun x hx => hL x (List.mem_filter.1 hx).1
    | createProgram => cases a <;> exact hL
    | linkProgram p => cases a <;> exact hL
    | _ => exact hL

theorem vouches_after : ∀ {t : Trace} {L : Ledger}, c.Vouches L → Along c.Decides L t → c.Vouches (L.after t)
  | [], _, hL, _ => hL
  | e :: t, L, hL, ht => by
    rw [Ledger.after_cons]
    exact vouches_after (vouches_enter hL ht.1) ht.2

end Compiler

/-! ## Scripts and the verdict -/

section

variable {c : Compiler} {L : Ledger}

theorem Compiles.status {stage : Stage} {source : String} {r : Except BuildError ShaderId} {t : Trace}
    (h : Compiles stage source r t) (hd : Along c.Decides L t) :
    match r with
    | .ok _ => c.accepts stage source = true
    | .error e => c.accepts stage source = false ∧ e.withoutLog = .compile stage "" := by
  cases h with
  | refused message => cases hd.1.2
  | compiled id => exact (hd.2.1.2 ⟨id, stage, "", false⟩ List.mem_cons_self rfl).symm
  | rejected id log => exact ⟨(hd.2.1.2 ⟨id, stage, "", false⟩ List.mem_cons_self rfl).symm, rfl⟩

theorem Links.status {v f : ShaderId} {vText fText : String} {r : Except BuildError Linked} {t : Trace}
    (h : Links v f r t) (hf : .shader f ∉ (L.addShader ⟨v, .vertex, vText, true⟩).live)
    (hd : Along c.Decides (staged L v f vText fText) t) :
    match r with
    | .ok _ => c.joins [(.vertex, vText), (.fragment, fText)] = true
    | .error e => c.joins [(.vertex, vText), (.fragment, fText)] = false ∧ e.withoutLog = .link "" := by
  have hjoins : ∀ p status, .program p ∉ (staged L v f vText fText).live →
      c.Decides (((staged L v f vText fText).addProgram ⟨p, [], none⟩).enter (said (.attachShader p v) ()) |>.enter
        (said (.attachShader p f) ())) (said (.linkProgram p) status) →
      c.joins [(.vertex, vText), (.fragment, fText)] = status := by
    intro p status hp hl
    rw [enter_attach hp, enter_attach hp] at hl
    have hs : status = c.joins (((staged L v f vText fText).stages ⟨p, [v, f], none⟩).map fun x => (x.stage, x.source)) :=
      hl.2 ⟨p, [v, f], none⟩ List.mem_cons_self rfl
    rw [staged_stages hf] at hs
    exact hs.symm
  cases h with
  | refused message => cases hd.1.2
  | linked p => exact hjoins p true (hd.1.1 _ rfl) hd.2.2.2.1
  | rejected p log => exact ⟨hjoins p false (hd.1.1 _ rfl) hd.2.2.2.1, rfl⟩

/-- **A build goes as the verdict on its sources has it**, when the vertex stage compiles. -/
theorem Builds.judged {vText fText : String} {r : Except BuildError Linked} {t : Trace} (h : Builds vText fText r t)
    (hL : L.Tidy) (hv : c.accepts .vertex vText = true) (hd : Along c.Decides L t) :
    (r.map fun _ => ()).mapError BuildError.withoutLog = c.judge vText fText := by
  have hf := Compiler.fresh_of_decides hd
  cases h with
  | noVertex hc =>
    have hs := hc.status hd
    rw [hv] at hs
    cases hs.1
  | noFragment hc hc' =>
    rw [along_append] at hd hf
    obtain ⟨-, hlv⟩ := hc.leads hL hf.1
    rw [hlv.after_eq, along_append] at hd
    obtain ⟨hrejected, he⟩ := hc'.status hd.2.1
    rw [Compiler.judge, if_pos hrejected, ← he]
    rfl
  | staged hc hc' hl =>
    rw [along_append] at hd hf
    obtain ⟨hfresh, hlv⟩ := hc.leads hL hf.1
    rw [hlv.after_eq, along_append] at hd hf
    obtain ⟨hfresh', hlf⟩ := hc'.leads (hL.addShader hfresh) hf.2.1
    have haccepted := hc'.status hd.2.1
    rw [hlf.after_eq] at hd
    have hs := hl.status hfresh' hd.2.2
    rw [Compiler.judge, if_neg (by rw [haccepted]; exact Bool.noConfusion)]
    cases r with
    | ok l =>
      rw [if_neg (by rw [hs]; exact Bool.noConfusion)]
      rfl
    | error e =>
      rw [if_pos hs.1, ← hs.2]
      rfl

theorem owning_parts {l : Linked} (hne : l.vertex ≠ l.fragment) (vText fText : String) (link : Option Nat)
    (current : Option ProgramId) (links : Nat) (p : ProgramId) (k : Option Nat) :
    Compiler.parts (owning l vText fText link current links) ⟨p, [l.vertex, l.fragment], k⟩ =
      [(.vertex, vText), (.fragment, fText)] := by
  simp [Compiler.parts, Ledger.stages, Ledger.shader?, owning, hne.symm]

theorem Exchanges.status {l : Linked} {f : ShaderId} {vText fText text : String} {link : Option Nat}
    {current : Option ProgramId} {links : Nat} {r : Except BuildError Linked} {u : Trace}
    (h : Slot.Exchanges l f r u) (hne : l.vertex ≠ l.fragment)
    (hf : .shader f ∉ (owning l vText fText link current links).live)
    (hd : Along c.Decides ((owning l vText fText link current links).addShader ⟨f, .fragment, text, true⟩) u) :
    match r with
    | .ok _ => c.joins [(.vertex, vText), (.fragment, text)] = true
    | .error e => c.joins [(.vertex, vText), (.fragment, text)] = false ∧ e.withoutLog = .link "" := by
  have hfv : l.vertex ≠ f := fun h => hf (mem_live_owning.2 (Or.inr (Or.inl (by rw [h]))))
  have hafter := (leads_exchange hne hf (.nil (owning { l with fragment := f } vText text link current links))).after_eq
  have hjoins : ∀ status rest,
      Along c.Decides ((owning l vText fText link current links).addShader ⟨f, .fragment, text, true⟩)
        ([said (.detachShader l.program l.fragment) (), said (.deleteShader l.fragment) (),
          said (.attachShader l.program f) ()] ++ said (.linkProgram l.program) status :: rest) →
      c.joins [(.vertex, vText), (.fragment, text)] = status := by
    intro status rest hd
    rw [along_append, hafter] at hd
    have hs := hd.2.1.2 ⟨l.program, [l.vertex, f], link⟩ (List.mem_singleton.2 rfl) rfl
    rw [owning_parts (l := { l with fragment := f }) hfv] at hs
    exact hs.symm
  cases h with
  | linked => exact hjoins true [] hd
  | rejected log => exact ⟨hjoins false _ hd, rfl⟩

end

namespace Slot

variable {s : Slot} {c : Compiler} {L : Ledger} {files : Files.Tree} {name : String}
  {r : Except BuildError Unit × Slot} {t : Trace}

/-- **A load goes as the verdict on the name has it.** -/
theorem Loads.verdict (h : Loads s files name r t) (hs : s.Owns L) (hd : Along c.Decides L t)
    (hv : c.accepts .vertex (vertexSource s.recipe.version) = true) :
    r.1.mapError BuildError.withoutLog = c.verdict s.recipe files name := by
  obtain ⟨current, hempty⟩ := tearing_leads hs
  have htidy : ({ current, links := L.links } : Ledger).Tidy := tidy_of_no_programs rfl
  have hbuild : ∀ {b : Except BuildError Linked} {u : Trace},
      FromSource s.recipe files name (Builds (vertexSource s.recipe.version)) b u →
      Along c.Decides { current, links := L.links } u →
      (b.map fun _ => ()).mapError BuildError.withoutLog = c.verdict s.recipe files name := by
    intro b u hb hd
    unfold Compiler.verdict
    cases hb with
    | unread hr => rw [hr]; rfl
    | read hr hb => rw [hr]; exact hb.judged htidy hv hd
  cases h with
  | failed hb =>
    rw [along_append, hempty.after_eq] at hd
    exact hbuild hb hd.2
  | loaded hb =>
    rw [along_append, hempty.after_eq] at hd
    exact hbuild hb hd.2

/-- **A swap goes as the verdict on the name has it.** -/
theorem Swaps.verdict {l : Linked} (h : Swaps s files name l r t) (hl : s.active = some l) (hs : s.Owns L)
    (hd : Along c.Decides L t) : r.1.mapError BuildError.withoutLog = c.verdict s.recipe files name := by
  obtain ⟨old, he⟩ := hs.eq_owning hl
  have hne := (hs.loaded l hl).1
  have htidy := hs.tidy
  rw [he] at hd htidy
  have hlinks : ∀ {f : ShaderId} {b : Except BuildError Linked} {t u : Trace},
      FromSource s.recipe files name (Compiles .fragment) (.ok f) t → Exchanges l f b u →
      Along c.Decides (owning l (vertexSource s.recipe.version) old (some s.generation) L.current L.links) (t ++ u) →
      (b.map fun _ => ()).mapError BuildError.withoutLog = c.verdict s.recipe files name := by
    intro f b t u hb hx hd
    rw [along_append] at hd
    cases hb with
    | read hr hc =>
      obtain ⟨hfresh, hlc⟩ := hc.leads htidy (Compiler.fresh_of_decides hd.1)
      have haccepted := hc.status hd.1
      rw [hlc.after_eq] at hd
      have hstatus := Exchanges.status hx hne hfresh hd.2
      unfold Compiler.verdict Compiler.judge
      rw [hr]
      simp only [haccepted, Bool.true_eq_false, if_false]
      cases b with
      | ok l' =>
        rw [if_neg (by rw [hstatus]; exact Bool.noConfusion)]
        rfl
      | error e =>
        rw [if_pos hstatus.1, ← hstatus.2]
        rfl
  cases h with
  | unbuilt hb =>
    rw [along_append] at hd
    unfold Compiler.verdict Compiler.judge
    cases hb with
    | unread hr => rw [hr]; rfl
    | read hr hc =>
      obtain ⟨hrejected, he⟩ := hc.status hd.1
      simp only [hr, hrejected, if_true]
      rw [← he]
      rfl
  | unlinked hb hx => exact hlinks hb hx hd
  | swapped hb hx => exact hlinks hb hx hd

/-- A program of a ledger is linked and has two stages attached, in this order, made of these sources. -/
def Carries (L : Ledger) (l : Linked) (vText fText : String) : Prop :=
  ∃ p ∈ L.programs, p.id = l.program ∧ p.attached = [l.vertex, l.fragment] ∧ p.link.isSome = true ∧
    Compiler.parts L p = [(.vertex, vText), (.fragment, fText)]

theorem carries_owning {l : Linked} (hne : l.vertex ≠ l.fragment) (vText fText : String) (k : Nat)
    (current : Option ProgramId) (links : Nat) :
    Carries (owning l vText fText (some k) current links) l vText fText :=
  ⟨_, List.mem_singleton.2 rfl, rfl, rfl, rfl, owning_parts hne vText fText (some k) current links l.program (some k)⟩

/-- How far two attempts to fill a slot agree: in success, in the error but for what the driver adds, in the slot but
for handles, in the files, and in the sources of what is linked. -/
structure Agree {σ : Type} (a b : (Except BuildError Unit × Slot) × World σ) : Prop where
  verdict : a.1.1.mapError BuildError.withoutLog = b.1.1.mapError BuildError.withoutLog
  slot : { a.1.2 with active := none } = { b.1.2 with active := none }
  files : a.2.files = b.2.files
  failed : ∀ e, a.1.1 = .error e → a.1.2.active = none ∧ b.1.2.active = none
  linked : a.1.1 = .ok () → ∃ l l' vText fText, a.1.2.active = some l ∧ b.1.2.active = some l' ∧
    Carries (ledger a.2.trace) l vText fText ∧ Carries (ledger b.2.trace) l' vText fText

theorem Settled.agree {σ : Type} {a b : (Except BuildError Unit × Slot) × World σ} {past u : Trace}
    (ha : Settled s files name (ledger past) a.1 t) (hb : Settled s files name (ledger past) b.1 u)
    (hta : a.2.trace = past ++ t) (htb : b.2.trace = past ++ u) (hfiles : a.2.files = b.2.files)
    (hv : a.1.1.mapError BuildError.withoutLog = b.1.1.mapError BuildError.withoutLog) : Agree a b := by
  obtain ⟨r, w⟩ := a
  obtain ⟨r', w'⟩ := b
  have hcarries : ∀ {w : World σ} {t : Trace} {l : Linked} {text : String} {current : Option ProgramId},
      w.trace = past ++ t → l.vertex ≠ l.fragment →
      Leads (ledger past) t (owning l (vertexSource s.recipe.version) text (some ((ledger past).links + 1)) current
        ((ledger past).links + 1)) →
      Carries (ledger w.trace) l (vertexSource s.recipe.version) text := by
    intro w t l text current ht hne hl
    rw [ht, ledger, Ledger.after_append, ← ledger, hl.after_eq]
    exact carries_owning hne _ _ _ _ _
  cases ha with
  | emptied e current hl =>
    cases hb with
    | emptied e' current' hl' => exact ⟨hv, rfl, hfiles, fun _ _ => ⟨rfl, rfl⟩, fun h => (by cases h)⟩
    | filled current' hr' hne' hl' => cases hv
  | filled current hr hne hl =>
    cases hb with
    | emptied e' current' hl' => cases hv
    | filled current' hr' hne' hl' =>
      have htext := Except.ok.inj (hr.symm.trans hr')
      subst htext
      exact ⟨hv, rfl, hfiles, fun _ h => (by cases h),
        fun _ => ⟨_, _, _, _, rfl, rfl, hcarries hta hne hl, hcarries htb hne' hl'⟩⟩

theorem Owns.vertex_accepted (hs : s.Owns L) (hv : c.Vouches L) (hl : s.isLoaded = true) :
    c.accepts .vertex (vertexSource s.recipe.version) = true := by
  obtain ⟨l, hl⟩ := Option.isSome_iff_exists.1 hl
  obtain ⟨-, -, text, hshaders⟩ := hs.loaded l hl
  have hmem : ⟨l.vertex, .vertex, vertexSource s.recipe.version, true⟩ ∈ L.shaders := by
    rw [hshaders]
    exact List.mem_cons_of_mem _ List.mem_cons_self
  exact hv _ hmem rfl

theorem Owns.agree {σ : Type} {host : Host σ} {now : World σ} (hs : s.Owns (ledger now.trace))
    (hloaded : s.isLoaded = true) (hv : c.accepts .vertex (vertexSource s.recipe.version) = true)
    (hswap : Along c.Decides {} (s.hotSwap.on host now).2.trace)
    (hreload : Along c.Decides {} (s.reload.on host now).2.trace) :
    Agree (s.hotSwap.on host now) (s.reload.on host now) := by
  obtain ⟨l, hl⟩ := Option.isSome_iff_exists.1 hloaded
  obtain ⟨name, hn⟩ := Option.isSome_iff_exists.1 (hs.named hloaded)
  have hreload_eq : s.reload (σ := σ) = s.load name := by
    unfold reload
    rw [hn]
  rw [hreload_eq] at hreload ⊢
  obtain ⟨t, ht, hswaps, hfiles⟩ := hotSwap_follows s now.files name l hn hl host now rfl
  obtain ⟨u, hu, hloads, hfiles'⟩ := load_follows s now.files name host now rfl
  rw [ht, along_append] at hswap
  rw [hu, along_append] at hreload
  have hsettled := hswaps.settled hn hl hs (Compiler.fresh_of_decides hswap.2)
  have hsettled' := hloads.settled hs (Compiler.fresh_of_decides hreload.2)
  refine hsettled.agree hsettled' ht hu (hfiles.trans hfiles'.symm) ?_
  rw [hswaps.verdict hl hs hswap.2, hloads.verdict hs hreload.2 hv]

/-- **A hot swap agrees with a reload.**  Both start from the same slot, which was filled in any way, with any files and
any state of the driver, as long as the driver makes every object and answers from sources alone. -/
theorem hotSwap_agrees {σ : Type} (c : Compiler) (recipe : Recipe) (host : Host σ) (state : σ) (files : Files.Tree)
    (steps : List (Interlude σ × Operation)) {s : Slot} {world now : World σ}
    (hrun : (performAll { recipe } steps).on host { host := state, files } = (s, world)) (hloaded : s.isLoaded = true)
    (hpast : now.past = world.past) (hswap : Along c.Decides {} (s.hotSwap.on host now).2.trace)
    (hreload : Along c.Decides {} (s.reload.on host now).2.trace) :
    Agree (s.hotSwap.on host now) (s.reload.on host now) := by
  obtain ⟨past, htrace, hfollows⟩ := performAll_follows steps { recipe } files host { host := state, files } rfl
  rw [hrun] at htrace hfollows
  have hnow : now.trace = past := by
    rw [World.trace, hpast]
    exact htrace
  obtain ⟨t, ht, -⟩ := hotSwap_performs s now.files host now rfl
  have hdecided : Along c.Decides {} past := by
    rw [ht, hnow, along_append] at hswap
    exact hswap.1
  obtain ⟨M, hM, hs⟩ := hfollows {} (owns_empty recipe) (Compiler.fresh_of_decides hdecided)
  have hvouches : c.Vouches (ledger past) := Compiler.vouches_after (fun _ h => by cases h) hdecided
  rw [← hM.after_eq, ← ledger] at hs
  subst hnow
  exact hs.agree hloaded (hs.vertex_accepted hvouches hloaded) hswap hreload

@[irreducible] def blankLoaded : Slot × World Simulator.State :=
  (performAll { recipe := blankRecipe } [({}, .load "a")]).on Simulator.host { host := {}, files := blankShader }

def blankEdited : World Simulator.State :=
  { blankLoaded.2 with files := ⟨.dir [("a.frag", .file "//".toUTF8)], []⟩ }

theorem hotSwap_agrees_edited :
    (blankLoaded.1.hotSwap.on Simulator.host blankEdited).1.1.isOk = true ∧
    Agree (blankLoaded.1.hotSwap.on Simulator.host blankEdited) (blankLoaded.1.reload.on Simulator.host blankEdited) := by
  have hrun : (performAll { recipe := blankRecipe } [({}, .load "a")]).on Simulator.host
      { host := {}, files := blankShader } = (blankLoaded.1, blankLoaded.2) := by
    rw [Prod.eta, blankLoaded]
  refine ⟨by decide +kernel, ?_⟩
  exact hotSwap_agrees ⟨fun _ _ => true, fun _ => true⟩ blankRecipe Simulator.host {} blankShader [({}, .load "a")] hrun
    (by decide +kernel) rfl (by decide +kernel) (by decide +kernel)

end Slot

end Program
end LiveShader
