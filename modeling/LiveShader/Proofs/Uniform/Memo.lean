import LiveShader.Proofs.Program.Lifetime
import LiveShader.Proofs.Uniform.Locations
/-!
# Proofs.Uniform.Memo — how far the memo of a table can be trusted

A table is brought in line with a slot by its memo alone, and resolving a table by hand does not write the memo.  So
being brought in line does what it should unless the table has strayed from a memo that fits the slot
(`sync_inLine`), and then it does nothing at all.
-/
namespace LiveShader
namespace Uniform

open Machine
open Ledger (Along)

variable {σ : Type}

/-- A table beside a slot, and whether the table was resolved by hand since its memo was last written. -/
structure Bench where
  table : Table
  slot : Program.Slot
  strayed : Bool := false

/-- What can be done with a table and a slot beside it. -/
inductive Act where
  | set (u : Uniform) (value : Value)
  | resolve (program : ProgramId)
  | invalidate
  | sync
  | push
  | operate (op : Program.Slot.Operation)

def Act.sets : Act → Bool
  | .set _ _ => true
  | _ => false

namespace Bench

def act (b : Bench) : Act → Run σ Bench
  | .set u value => return { b with table := b.table.set u value }
  | .resolve program => do
    let table ← b.table.resolve program
    return { b with table, strayed := true }
  | .invalidate => return { b with table := b.table.invalidate, strayed := false }
  | .sync => do
    let table ← b.table.sync b.slot
    return { b with table, strayed := b.strayed && table.resolvedFor == b.table.resolvedFor }
  | .push => do
    b.table.push
    return b
  | .operate op => do
    let (_, slot) ← b.slot.perform op
    return { b with slot }

def actAll (b : Bench) : List (Interlude σ × Act) → Run σ Bench
  | [] => return b
  | (change, a) :: steps => do
    interlude change
    let b ← b.act a
    actAll b steps

/-- The memo fits the slot. -/
def Remembers (b : Bench) : Prop := b.table.resolvedFor = if b.slot.isLoaded then some b.slot.generation else none

instance (b : Bench) : Decidable b.Remembers := inferInstanceAs (Decidable (_ = _))

/-- **A table in line with its slot**: beside an empty slot it has no locations, and beside a loaded one those that the
driver reports for the last link of the slot's program. -/
def InLine (report : Nat → String → Option Nat) (L : Ledger) (b : Bench) : Prop :=
  match b.slot.active with
  | none => ∀ u, b.table.location u = .absent
  | some l => ∃ x ∈ L.programs, x.id = l.program ∧
      ∃ n, x.link = some n ∧ ∀ u, b.table.location u = .ofAnswer (report n u.glslName)

inductive Acts (b : Bench) (files : Files.Tree) : Act → Bench → Trace → Prop
  | set (u : Uniform) (value : Value) : Acts b files (.set u value) { b with table := b.table.set u value } []
  | resolve {p : ProgramId} {table : Table} {q : Trace} :
    Table.Resolves p b.table.order.walk b.table table q → Acts b files (.resolve p) { b with table, strayed := true } q
  | invalidate : Acts b files .invalidate { b with table := b.table.invalidate, strayed := false } []
  | sync {table : Table} {q : Trace} :
    Table.Syncs b.table b.slot table q →
      Acts b files .sync { b with table, strayed := b.strayed && table.resolvedFor == b.table.resolvedFor } q
  | push : Acts b files .push b
      (Table.uploads b.table.order.walk (fun u => (b.table.location u).index?) b.table.value)
  | operate {op : Program.Slot.Operation} {r : Except Program.BuildError Unit × Program.Slot} {t : Trace} :
    Program.Slot.Performs b.slot files op r t → Acts b files (.operate op) { b with slot := r.2 } t

variable {b b' : Bench} {files : Files.Tree} {a : Act} {t q : Trace} {L : Ledger} {report : Nat → String → Option Nat}

theorem act_follows (b : Bench) (a : Act) (files : Files.Tree) :
    (b.act a : Run σ Bench).Follows files fun b' t _ => Acts b files a b' t := by
  cases a with
  | set u value => exact .pure (.set u value)
  | resolve p =>
    refine .calls (Table.resolveEach_calls p _ b.table) fun table q h => .pure ?_
    rw [List.append_nil]
    exact .resolve h
  | invalidate => exact .pure .invalidate
  | sync =>
    refine .calls (Table.sync_calls b.table b.slot) fun table q h => .pure ?_
    rw [List.append_nil]
    exact .sync h
  | push =>
    refine .calls (Table.pushEach_calls b.table _) fun _ q h => .pure ?_
    rw [List.append_nil, h]
    exact .push
  | operate op =>
    refine .bind (Program.Slot.perform_follows b.slot files op) fun r t f h => .pure ?_
    rw [List.append_nil]
    exact .operate h

theorem Acts.values (h : Acts b files a b' t) (ha : a.sets = false) (u : Uniform) :
    b'.table.value u = b.table.value u := by
  cases h with
  | set _ _ => cases ha
  | resolve hr =>
    obtain ⟨-, hvalue, -⟩ := hr.keeps (L := {})
    exact hvalue u
  | sync hs =>
    obtain ⟨-, hvalue, -⟩ := hs.keeps (L := {})
    exact hvalue u
  | invalidate =>
    unfold Table.value
    rw [Table.slot_invalidate]
  | push | operate _ => rfl

/-! ## What a table that has not strayed owes to its memo -/

/-- **The memo of a table that has not strayed is right**: its locations are those of the link that it names, and it has
none without one. -/
structure Sound (report : Nat → String → Option Nat) (L : Ledger) (b : Bench) : Prop where
  tracks : b.slot.Tracks L
  cached : b.strayed = false → b.table.Cached report
  blank : b.strayed = false → b.table.resolvedFor = none → ∀ u, b.table.location u = .absent

theorem location_invalidate (t : Table) (u : Uniform) : t.invalidate.location u = .absent := by
  unfold Table.location
  rw [Table.slot_invalidate]

theorem Sound.sync {table : Table} (hb : Sound report L b) (h : Table.Syncs b.table b.slot table q)
    (hq : Along (Reports report) L q) :
    Sound report (L.after q) { b with table, strayed := b.strayed && table.resolvedFor == b.table.resolvedFor } := by
  obtain ⟨-, -, hafter⟩ := h.keeps (L := L)
  rw [hafter]
  cases h with
  | current _ _ | idle _ _ =>
    have hstrayed : (b.strayed && b.table.resolvedFor == b.table.resolvedFor) = b.strayed := by simp
    rw [hstrayed]
    exact hb
  | renewed hl hr =>
    refine ⟨hb.tracks, fun _ n hn u => ?_, fun _ hnone => by cases hnone⟩
    obtain rfl : b.slot.generation = n := Option.some.inj hn
    exact hr.current hb.tracks hl hq u
  | emptied _ _ =>
    refine ⟨hb.tracks, fun _ n hn => ?_, fun _ _ u => location_invalidate b.table u⟩
    cases hn

theorem Sound.acts (hb : Sound report L b) (h : Acts b files a b' t) (ht : Along (Reports report) L t) :
    Sound report (L.after t) b' := by
  cases h with
  | set u value =>
    refine ⟨hb.tracks, fun hs n hn v => ?_, fun hs hn v => ?_⟩
    · rw [Table.location_set]
      exact hb.cached hs n (Table.resolvedFor_set b.table u value ▸ hn) v
    · rw [Table.location_set]
      exact hb.blank hs (Table.resolvedFor_set b.table u value ▸ hn) v
  | resolve hr =>
    obtain ⟨-, -, hafter⟩ := hr.keeps (L := L)
    rw [hafter]
    exact ⟨hb.tracks, fun hs => (by cases hs), fun hs => (by cases hs)⟩
  | invalidate =>
    refine ⟨hb.tracks, fun _ n hn => ?_, fun _ _ u => location_invalidate b.table u⟩
    cases hn
  | sync hs => exact hb.sync hs ht
  | push =>
    rw [Table.after_uploads]
    exact hb
  | operate hp => exact ⟨hp.tracks hb.tracks, hb.cached, hb.blank⟩

/-! ## Being brought in line -/

/-- Beside a table that has not strayed, a memo that fits the slot is enough. -/
theorem Sound.inLine (hb : Sound report L b) (hs : b.strayed = false) (hm : b.Remembers) : b.InLine report L := by
  unfold Remembers at hm
  unfold InLine
  cases hl : b.slot.active with
  | none =>
    rw [Program.Slot.isLoaded_of_empty hl] at hm
    exact hb.blank hs hm
  | some l =>
    rw [Program.Slot.isLoaded_of_active hl] at hm
    obtain ⟨x, hx, hid, hlink⟩ := hb.tracks.program hl
    exact ⟨x, hx, hid, b.slot.generation, hlink, hb.cached hs _ hm⟩

/-- A table whose memo fits the slot is left as it is. -/
theorem sync_of_remembers (h : b.Remembers) : (b.act .sync : Run σ Bench) = pure b := by
  have hsync : (b.table.sync b.slot : Run σ Table) = pure b.table := by
    unfold Remembers at h
    unfold Table.sync
    cases hl : b.slot.active with
    | none =>
      rw [Program.Slot.isLoaded_of_empty hl] at h
      simp [h]
    | some l =>
      rw [Program.Slot.isLoaded_of_active hl] at h
      simp [h]
  unfold act
  simp [hsync]

/-- Any other table is brought in line, whatever its locations were. -/
theorem Sound.synced {table : Table} (hb : Sound report L b) (hm : ¬b.Remembers)
    (h : Table.Syncs b.table b.slot table q) (hq : Along (Reports report) L q) (strayed : Bool) :
    InLine report (L.after q) { b with table, strayed } := by
  obtain ⟨-, -, hafter⟩ := h.keeps (L := L)
  rw [hafter]
  unfold Remembers at hm
  unfold InLine
  cases h with
  | current hl hr =>
    rw [Program.Slot.isLoaded_of_active hl] at hm
    exact absurd hr hm
  | idle hl hr =>
    rw [Program.Slot.isLoaded_of_empty hl] at hm
    exact absurd hr hm
  | renewed hl hr =>
    obtain ⟨x, hx, hid, hlink⟩ := hb.tracks.program hl
    rw [hl]
    exact ⟨x, hx, hid, b.slot.generation, hlink, hr.current hb.tracks hl hq⟩
  | emptied hl _ =>
    rw [hl]
    exact location_invalidate b.table

theorem actAll_follows (report : Nat → String → Option Nat) :
    ∀ (steps : List (Interlude σ × Act)) (b : Bench) (files : Files.Tree), (b.actAll steps).Follows files fun b' t _ =>
      ∀ L : Ledger, Sound report L b → Along (Reports report) L t → Sound report (L.after t) b'
  | [], b, files => .pure fun L hb _ => hb
  | (change, a) :: steps, b, files => by
    refine .interlude (.bind (act_follows b a _) fun b' t f ha => ?_)
    refine (actAll_follows report steps b' f).mono fun b'' u _ hrest L hb ht => ?_
    rw [Ledger.along_append] at ht
    rw [Ledger.after_append]
    exact hrest _ (hb.acts ha ht.1) ht.2

theorem sound_initial (recipe : Source.Recipe) (order : Order) (report : Nat → String → Option Nat) :
    Sound report {} { table := .initial order, slot := { recipe } } := by
  refine ⟨rfl, fun _ => Table.cached_initial order, fun _ _ u => ?_⟩
  unfold Table.location
  rw [Table.slot_initial]

/-- What being brought in line does in one state. -/
theorem Sound.sync_iff {host : Host σ} {world : World σ} (hb : Sound report (ledger world.trace) b)
    (hreports : Along (Reports report) {} ((b.act .sync).on host world).2.trace) :
    ((b.act .sync).on host world).1.InLine report (ledger ((b.act .sync).on host world).2.trace) ↔
      (b.strayed = true → b.Remembers → b.InLine report (ledger world.trace)) := by
  by_cases hm : b.Remembers
  · have hsame : (b.act .sync).on host world = (b, world) := by
      rw [sync_of_remembers hm]
      rfl
    rw [hsame]
    constructor
    · exact fun h _ _ => h
    · intro h
      cases hs : b.strayed with
      | true => exact h hs hm
      | false => exact hb.inLine hs hm
  · constructor
    · exact fun _ _ h => absurd h hm
    · intro _
      obtain ⟨t, hnext, hacts⟩ := act_follows b .sync world.files host world rfl
      rw [hnext, Ledger.along_append] at hreports
      rw [hnext, ledger, Ledger.after_append]
      generalize ((b.act .sync).on host world).1 = b' at hacts
      cases hacts with
      | sync hs => exact hb.synced hm hs hreports.2 _

/-- **Being brought in line does what it should but for one case.**  Whatever was done with a table and with the slot
beside it, the table is in line afterwards unless it was resolved by hand since its memo was last written, the memo
fits the slot all the same, and the table was out of line before; and nothing but setting a value changes one.  All that
is asked of the driver is that a location depends on the last link and the name alone. -/
theorem sync_inLine (recipe : Source.Recipe) (order : Order) (host : Host σ) (state : σ) (files : Files.Tree)
    (steps : List (Interlude σ × Act)) {b : Bench} {world : World σ}
    (hrun : (actAll { table := .initial order, slot := { recipe } } steps).on host { host := state, files } = (b, world))
    (hreports : Along (Reports report) {} ((b.act .sync).on host world).2.trace) :
    let next := (b.act .sync).on host world
    (next.1.InLine report (ledger next.2.trace) ↔
      (b.strayed = true → b.Remembers → b.InLine report (ledger world.trace))) ∧
    ∀ (c : Bench) (a : Act) (now : World σ), a.sets = false →
      ∀ u, ((c.act a).on host now).1.table.value u = c.table.value u := by
  intro next
  obtain ⟨past, hpast, hfollows⟩ := actAll_follows report steps { table := .initial order, slot := { recipe } }
    files host { host := state, files } rfl
  rw [hrun] at hpast hfollows
  have hpast : world.trace = past := hpast
  subst hpast
  have hb : Sound report (ledger world.trace) b := by
    obtain ⟨t, hnext, -⟩ := act_follows b .sync world.files host world rfl
    have hbefore := hreports
    rw [hnext, Ledger.along_append] at hbefore
    exact hfollows {} (sound_initial recipe order report) hbefore.1
  constructor
  · exact hb.sync_iff hreports
  · intro c a now ha u
    obtain ⟨_, -, hacts⟩ := act_follows c a now.files host now rfl
    exact hacts.values ha u

/-- The time is the one uniform in use. -/
def soleReport (_ : Nat) (name : String) : Option Nat := if name = Uniform.time.glslName then some 5 else none

/-- The simulator, but for the locations, which every live program has alike. -/
def soleHost : Host Simulator.State
  | .pipeline (.uniformLocation p name), s => (if (s.program? p).isSome then soleReport 0 name else none, s)
  | r, s => Simulator.host r s

def blankBench : Bench := { table := .initial .declared, slot := { recipe := Program.Slot.blankRecipe } }

/-- A table is resolved by hand for a program that there is not, and the shader is swapped. -/
def straying : List (Interlude Simulator.State × Act) :=
  [({}, .operate (.load "a")), ({}, .sync), ({}, .set .time (.float 1.0)), ({}, .resolve ⟨9⟩), ({}, .push),
    ({}, .operate .hotSwap)]

@[irreducible] def astray : Bench × World Simulator.State :=
  (actAll blankBench straying).on soleHost { host := {}, files := Program.Slot.blankShader }

theorem sync_inLine_strayed :
    let next := (astray.1.act .sync).on soleHost astray.2
    ((astray.1.strayed = true ∧ astray.1.slot.isLoaded = true ∧ ¬astray.1.Remembers) ∧
      Along (Reports soleReport) {} next.2.trace) ∧
    (next.1.InLine soleReport (ledger next.2.trace) ↔
      (astray.1.strayed = true → astray.1.Remembers → astray.1.InLine soleReport (ledger astray.2.trace))) ∧
    ∀ (c : Bench) (a : Act) (now : World Simulator.State), a.sets = false →
      ∀ u, ((c.act a).on soleHost now).1.table.value u = c.table.value u := by
  have hrun : (actAll blankBench straying).on soleHost { host := {}, files := Program.Slot.blankShader } =
      (astray.1, astray.2) := by
    rw [Prod.eta, astray]
  have hreports : Along (Reports soleReport) {} ((astray.1.act .sync).on soleHost astray.2).2.trace := by
    decide +kernel
  exact ⟨⟨by decide +kernel, hreports⟩, sync_inLine _ _ _ _ _ _ hrun hreports⟩

/-- A table that was never brought in line is resolved by hand, and then the slot is emptied. -/
@[irreducible] def forgotten : Bench × World Simulator.State :=
  (actAll blankBench [({}, .operate (.load "a")), ({}, .resolve ⟨3⟩), ({}, .operate .teardown), ({}, .sync)]).on
    soleHost { host := {}, files := Program.Slot.blankShader }

/-- **A table resolved by hand keeps its locations beside an empty slot.** -/
theorem sync_keeps_resolved : forgotten.1.slot.isLoaded = false ∧ Along (Reports soleReport) {} forgotten.2.trace ∧
    forgotten.1.table.location .time ≠ .absent := by
  have hempty : forgotten.1.slot.isLoaded = false := by decide +kernel
  have hreports : Along (Reports soleReport) {} forgotten.2.trace := by decide +kernel
  exact ⟨hempty, hreports, by decide +kernel⟩

end Bench
end Uniform
end LiveShader
