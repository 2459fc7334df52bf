import LiveShader.Machine.Run
/-!
# Proofs.Machine.Follows — what a program does, whatever the host answers

`program.Follows files S`: started with these files, on every host, the program lengthens the trace by some `added`,
and its result, `added` and the files it leaves are related by `S`.  There is one rule for each way to build a
program, so a proof walks through the program once, one case for each answer; everything else is then read off `S`.
-/
namespace LiveShader
namespace Machine

variable {σ α β : Type}

/-- **What a program does from some files**, on every host. -/
def Run.Follows (program : Run σ α) (files : Files.Tree) (S : α → Trace → Files.Tree → Prop) : Prop :=
  ∀ (host : Host σ) (world : World σ), world.files = files →
    ∃ added, (program.on host world).2.trace = world.trace ++ added ∧
      S (program.on host world).1 added (program.on host world).2.files

/-- What a program does that leaves the files alone. -/
def Run.Calls (program : Run σ α) (S : α → Trace → Prop) : Prop :=
  ∀ files, program.Follows files fun a t f => S a t ∧ f = files

namespace Run

theorem on_bind (p : Run σ α) (k : α → Run σ β) (host : Host σ) (world : World σ) :
    (p >>= k).on host world = (k (p.on host world).1).on host (p.on host world).2 := rfl

namespace Follows

variable {files : Files.Tree} {S : β → Trace → Files.Tree → Prop} {T : α → Trace → Files.Tree → Prop}

theorem mono {p : Run σ α} {T' : α → Trace → Files.Tree → Prop} (hp : p.Follows files T)
    (h : ∀ a t f, T a t f → T' a t f) : p.Follows files T' := by
  intro host world hf
  obtain ⟨added, ha, hT⟩ := hp host world hf
  exact ⟨added, ha, h _ _ _ hT⟩

theorem pure {b : β} (h : S b [] files) : (Pure.pure b : Run σ β).Follows files S := by
  intro host world hf
  subst hf
  exact ⟨[], (List.append_nil _).symm, h⟩

theorem bind {p : Run σ α} {k : α → Run σ β} (hp : p.Follows files T)
    (hk : ∀ a t f, T a t f → (k a).Follows f fun b u g => S b (t ++ u) g) : (p >>= k).Follows files S := by
  intro host world hf
  obtain ⟨t, ht, hT⟩ := hp host world hf
  obtain ⟨u, hu, hS⟩ := hk _ _ _ hT host _ rfl
  refine ⟨t ++ u, ?_, hS⟩
  rw [on_bind, hu, ht, List.append_assoc]

/-- A program that leaves the files alone, and what comes after it. -/
theorem calls {p : Run σ α} {k : α → Run σ β} {P : α → Trace → Prop} (hp : p.Calls P)
    (hk : ∀ a t, P a t → (k a).Follows files fun b u g => S b (t ++ u) g) : (p >>= k).Follows files S :=
  bind (hp files) (fun a t _ h => h.2 ▸ hk a t h.1)

/-- A request, and what comes after its answer. -/
theorem ask {r : Request} {k : r.Answer → Run σ β}
    (hk : ∀ a, (k a).Follows files fun b t f => S b (.call ⟨r, a⟩ :: t) f) : (Machine.ask r >>= k).Follows files S := by
  have hr : (Machine.ask r : Run σ _).Follows files fun a t f => t = [.call ⟨r, a⟩] ∧ f = files := by
    intro host world hf
    exact ⟨_, trace_ask r host world, rfl, hf⟩
  refine bind hr (fun a t f h => ?_)
  obtain ⟨rfl, rfl⟩ := h
  exact hk a

theorem ask_last {r : Request} {S : r.Answer → Trace → Files.Tree → Prop} (h : ∀ a, S a [.call ⟨r, a⟩] files) :
    (Machine.ask r : Run σ _).Follows files S := by
  intro host world hf
  subst hf
  exact ⟨_, trace_ask r host world, h _⟩

theorem withFiles {step : Files.Tree → α × Files.Tree} {k : α → Run σ β}
    (hk : (k (step files).1).Follows (step files).2 S) : (Machine.withFiles step >>= k).Follows files S := by
  intro host world hf
  subst hf
  exact hk host ((Machine.withFiles step).on host world).2 rfl

theorem deliver {event : Window.Event} {k : Unit → Run σ β}
    (hk : (k ()).Follows files fun b t f => S b (.event event :: t) f) : (Machine.deliver event >>= k).Follows files S := by
  intro host world hf
  obtain ⟨t, ht, hS⟩ := hk host ((Machine.deliver event).on host world).2 hf
  refine ⟨.event event :: t, ?_, hS⟩
  rw [on_bind, ht, trace_deliver, List.append_assoc]
  rfl

theorem interlude {change : Interlude σ} {k : Unit → Run σ β} (hk : (k ()).Follows (change.files files) S) :
    (Machine.interlude change >>= k).Follows files S := by
  intro host world hf
  subst hf
  exact hk host ((Machine.interlude change).on host world).2 rfl

end Follows

end Run
end Machine
end LiveShader
