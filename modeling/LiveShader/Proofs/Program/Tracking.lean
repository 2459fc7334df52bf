import LiveShader.Proofs.Program.Script
/-!
# Proofs.Program.Tracking — a generation stands for one link

A slot's generation is the number of links that succeeded, so for a loaded slot it is the number of its own program's
last link (`Slot.Tracks`).  Unlike ownership this needs nothing of the driver, not even fresh handles: a program is
only ever made when there is none.
-/
namespace LiveShader
namespace Program

open Machine Source

variable {L : Ledger} {t : Trace} {n : Nat}

/-- The live programs with the numbers of their last links, and the number of links. -/
def linkage (L : Ledger) : List (ProgramId × Option Nat) × Nat := (L.programs.map fun p => (p.id, p.link), L.links)

theorem linkage_eq_none : linkage L = ([], n) ↔ L.programs = [] ∧ L.links = n := by
  simp [linkage]

theorem linkage_eq_some {p : ProgramId} {k : Option Nat} :
    linkage L = ([(p, k)], n) ↔ (∃ attached, L.programs = [⟨p, attached, k⟩]) ∧ L.links = n := by
  unfold linkage
  rw [Prod.mk.injEq, List.map_eq_singleton_iff]
  constructor
  · rintro ⟨⟨x, hx, he⟩, hn⟩
    cases he
    exact ⟨⟨x.attached, hx⟩, hn⟩
  · rintro ⟨⟨attached, hx⟩, hn⟩
    exact ⟨⟨_, hx, rfl⟩, hn⟩

/-- The linkage that a program, if there is one, leaves after so many links. -/
def held (active : Option Linked) (n : Nat) : List (ProgramId × Option Nat) × Nat :=
  match active with
  | none => ([], n)
  | some l => ([(l.program, some n)], n)

/-- The linkage after an attempt to build or exchange a program. -/
def attempted (r : Except BuildError Linked) (n : Nat) : List (ProgramId × Option Nat) × Nat :=
  match r with
  | .error _ => held none n
  | .ok l => held (some l) (n + 1)

theorem Compiles.linkage {stage : Stage} {source : String} {r : Except BuildError ShaderId}
    (h : Compiles stage source r t) (L : Ledger) : linkage (L.after t) = linkage L := by
  cases h <;> rfl

theorem Links.linkage {v f : ShaderId} {r : Except BuildError Linked} (h : Links v f r t)
    (hL : linkage L = held none n) : linkage (L.after t) = attempted r n := by
  obtain ⟨hp, rfl⟩ := linkage_eq_none.1 hL
  cases h with
  | refused message => exact linkage_eq_none.2 ⟨hp, rfl⟩
  | linked p =>
    refine linkage_eq_some.2 ⟨⟨[v, f], ?_⟩, rfl⟩
    simp [Ledger.enter, Ledger.enterPipeline, Ledger.addProgram, Ledger.onProgram, hp]
  | rejected p log =>
    refine linkage_eq_none.2 ⟨?_, rfl⟩
    simp [Ledger.enter, Ledger.enterPipeline, Ledger.addProgram, Ledger.onProgram, Ledger.dropProgram,
      Ledger.dropShader, hp]

theorem Builds.linkage {vText fText : String} {r : Except BuildError Linked} (h : Builds vText fText r t)
    (hL : linkage L = held none n) : linkage (L.after t) = attempted r n := by
  cases h with
  | noVertex hc => rw [hc.linkage]; exact hL
  | noFragment hc hc' =>
    rw [Ledger.after_append, Ledger.after_append]
    show linkage ((L.after _).after _) = _
    rw [hc'.linkage, hc.linkage]
    exact hL
  | staged hc hc' hl =>
    rw [Ledger.after_append, Ledger.after_append]
    refine hl.linkage ?_
    rw [hc'.linkage, hc.linkage]
    exact hL

theorem build_linkage {recipe : Recipe} {files : Files.Tree} {name vText : String} {r : Except BuildError Linked}
    (h : FromSource recipe files name (Builds vText) r t) (hL : linkage L = held none n) :
    linkage (L.after t) = attempted r n := by
  cases h with
  | unread _ => exact hL
  | read _ hb => exact hb.linkage hL

theorem buildFragment_linkage {recipe : Recipe} {files : Files.Tree} {name : String} {r : Except BuildError ShaderId}
    (h : FromSource recipe files name (Compiles .fragment) r t) (L : Ledger) : linkage (L.after t) = linkage L := by
  cases h with
  | unread _ => rfl
  | read _ hc => exact hc.linkage L

theorem releasing_linkage {l : Linked} {k : Option Nat} (hL : linkage L = ([(l.program, k)], n)) :
    linkage (L.after (releasing l)) = held none n := by
  obtain ⟨⟨attached, hp⟩, rfl⟩ := linkage_eq_some.1 hL
  refine linkage_eq_none.2 ⟨?_, rfl⟩
  simp [releasing, Ledger.enter, Ledger.enterPipeline, Ledger.dropProgram, Ledger.dropShader, hp]

namespace Slot

theorem tearing_linkage {s : Slot} (hL : linkage L = held s.active n) :
    linkage (L.after s.tearing) = held none n := by
  unfold tearing
  cases hl : s.active with
  | none => rw [hl] at hL; exact hL
  | some l =>
    rw [hl] at hL
    exact releasing_linkage (L := L.enter (said (.useProgram none) ())) hL

theorem Exchanges.linkage {l : Linked} {f : ShaderId} {r : Except BuildError Linked} (h : Exchanges l f r t)
    (hL : linkage L = held (some l) n) : linkage (L.after t) = attempted r n := by
  obtain ⟨⟨attached, hp⟩, rfl⟩ := linkage_eq_some.1 hL
  cases h with
  | linked =>
    refine linkage_eq_some.2 ⟨⟨attached.filter (· != l.fragment) ++ [f], ?_⟩, rfl⟩
    simp [Ledger.enter, Ledger.enterPipeline, Ledger.onProgram, Ledger.dropShader, hp]
  | rejected log =>
    rw [Ledger.after_append]
    refine releasing_linkage (l := { l with fragment := f }) (k := none) (linkage_eq_some.2 ⟨⟨?_, ?_⟩, rfl⟩)
    · exact attached.filter (· != l.fragment) ++ [f]
    · simp [Ledger.enter, Ledger.enterPipeline, Ledger.onProgram, Ledger.dropShader, hp]

/-- **What a slot knows of its links**: its generation counts all links, and its program's last link is the latest. -/
def Tracks (s : Slot) (L : Ledger) : Prop := linkage L = held s.active s.generation

variable {s : Slot} {files : Files.Tree} {name : String} {r : Except BuildError Unit × Slot}

theorem Tracks.links (h : s.Tracks L) : L.links = s.generation := by
  have hheld : (held s.active s.generation).2 = s.generation := by cases s.active <;> rfl
  exact (congrArg Prod.snd h).trans hheld

/-- The program in a slot is live, and its last link is the one that the generation stands for. -/
theorem Tracks.program (h : s.Tracks L) {l : Linked} (hl : s.active = some l) :
    ∃ x ∈ L.programs, x.id = l.program ∧ x.link = some s.generation := by
  unfold Tracks at h
  rw [hl] at h
  obtain ⟨⟨attached, hp⟩, -⟩ := linkage_eq_some.1 h
  exact ⟨_, by rw [hp]; exact List.mem_cons_self, rfl, rfl⟩

theorem Loads.tracks (h : Loads s files name r t) (hs : s.Tracks L) : r.2.Tracks (L.after t) := by
  have hempty := tearing_linkage hs
  cases h with
  | failed hb => rw [Ledger.after_append]; exact build_linkage hb hempty
  | loaded hb => rw [Ledger.after_append]; exact build_linkage hb hempty

theorem Swaps.tracks {l : Linked} (h : Swaps s files name l r t) (hl : s.active = some l) (hs : s.Tracks L) :
    r.2.Tracks (L.after t) := by
  unfold Tracks at hs
  rw [hl] at hs
  cases h with
  | unbuilt hb =>
    rw [Ledger.after_append]
    refine releasing_linkage (k := some s.generation) ?_
    rw [buildFragment_linkage hb]
    exact hs
  | unlinked hb hx =>
    rw [Ledger.after_append]
    refine Exchanges.linkage hx ?_
    rw [buildFragment_linkage hb]
    exact hs
  | swapped hb hx =>
    rw [Ledger.after_append]
    refine Exchanges.linkage hx ?_
    rw [buildFragment_linkage hb]
    exact hs

/-- **Every operation keeps track**, whatever the driver answers. -/
theorem Performs.tracks {op : Operation} (h : Performs s files op r t) (hs : s.Tracks L) : r.2.Tracks (L.after t) := by
  cases h with
  | load hl => exact hl.tracks hs
  | reloadUnnamed _ => exact hs
  | reload _ hl => exact hl.tracks hs
  | swapUnnamed _ => exact hs
  | swapEmpty _ _ hl => exact hl.tracks hs
  | swap _ hl hx => exact hx.tracks hl hs
  | teardown => exact tearing_linkage hs
  | bindEmpty _ => exact hs
  | bind _ => exact hs
  | unbind => exact hs

end Slot
end Program
end LiveShader
