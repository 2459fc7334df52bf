import LiveShader.Clock
import Mathlib.Algebra.Ring.Nat
import Mathlib.Data.List.Chain
/-!
# Proofs.Clock — how a run of samples counts time

A clock remembers the latest instant it was given (`after_eq`), so the delta of a sample is the time by which its
instant is ahead of all before it, and the deltas count every stretch of time once (`deltas_account`).  The elapsed time
is that of the sample's own instant: it goes back where the instants do (`elapsed_ascends_iff`).
-/
namespace LiveShader

namespace Instant

/-- Back to an earlier instant there is no time. -/
theorem cast_since (later earlier : Int) : (since later earlier : Int) = max 0 (later - earlier) := by
  unfold since
  omega

theorem since_le_since_iff (origin now next : Int) :
    since now origin ≤ since next origin ↔ now ≤ next ∨ now ≤ origin := by
  unfold since
  omega

end Instant

namespace FrameClock

/-- What a clock tells at some instants, one after the other. -/
def samplesAt : FrameClock → List Instant → List TimeSample
  | _, [] => []
  | c, now :: rest => (c.sampleAt now).1 :: samplesAt (c.sampleAt now).2 rest

/-- The clock after some samples. -/
def after (c : FrameClock) (instants : List Instant) : FrameClock := instants.foldl (fun c now => (c.sampleAt now).2) c

/-- The latest of an instant and some others. -/
def latest (origin : Instant) (instants : List Instant) : Instant :=
  (origin :: instants).max (List.cons_ne_nil origin instants)

/-! ## Runs -/

theorem after_cons (c : FrameClock) (now : Instant) (rest : List Instant) :
    c.after (now :: rest) = (c.sampleAt now).2.after rest := rfl

/-- A sample is one of the clock that the instants before it left. -/
theorem getElem?_samplesAt (instants : List Instant) : ∀ (c : FrameClock) (i : Nat),
    (c.samplesAt instants)[i]? = instants[i]?.map fun now => ((c.after (instants.take i)).sampleAt now).1 := by
  induction instants with
  | nil => exact fun _ _ => rfl
  | cons now rest ih =>
    intro c i
    cases i with
    | zero => rfl
    | succ i => exact ih _ i

theorem take_samplesAt (instants : List Instant) : ∀ (c : FrameClock) (i : Nat),
    (c.samplesAt instants).take i = c.samplesAt (instants.take i) := by
  induction instants with
  | nil => exact fun _ _ => by simp [samplesAt]
  | cons now rest ih =>
    intro c i
    cases i with
    | zero => rfl
    | succ i => exact congrArg _ (ih _ i)

/-! ## What a clock remembers -/

theorem latest_nil (origin : Instant) : latest origin [] = origin := rfl

theorem latest_cons (origin now : Instant) (rest : List Instant) :
    latest origin (now :: rest) = latest (max now origin) rest := by
  rw [Int.max_comm]
  exact List.max_cons_cons

theorem latest_concat (origin now : Instant) (instants : List Instant) :
    latest origin (instants ++ [now]) = max now (latest origin instants) := by
  show (instants ++ [now]).foldl max origin = max now (instants.foldl max origin)
  rw [List.foldl_append, List.foldl_cons, List.foldl_nil, Int.max_comm]

/-- **A clock remembers the latest instant**, when it was reset, and how many samples it gave. -/
theorem after_eq (instants : List Instant) : ∀ {c : FrameClock}, c.frame ≤ maxFrame →
    c.after instants = ⟨c.origin, latest c.last instants, min (c.frame + instants.length) maxFrame⟩ := by
  induction instants with
  | nil =>
    intro c hframe
    rw [latest_nil, List.length_nil, Nat.add_zero, Nat.min_eq_left hframe]
    rfl
  | cons now rest ih =>
    intro c hframe
    have hnext : (c.sampleAt now).2.frame ≤ maxFrame := Nat.min_le_right _ _
    have hcount : min (min (c.frame + 1) maxFrame + rest.length) maxFrame =
        min (c.frame + (rest.length + 1)) maxFrame := by omega
    rw [after_cons, ih hnext, latest_cons, List.length_cons, ← hcount]
    rfl

theorem after_startingAt (origin : Instant) (instants : List Instant) :
    (startingAt origin).after instants = ⟨origin, latest origin instants, min instants.length maxFrame⟩ := by
  have h := after_eq instants (c := startingAt origin) (Nat.zero_le _)
  rwa [show (startingAt origin).frame = 0 from rfl, Nat.zero_add] at h

/-! ## Deltas -/

/-- The delta of a sample takes the clock from the latest instant before it to the latest one with it. -/
theorem delta_sampleAt (c : FrameClock) (now : Instant) :
    ((c.sampleAt now).1.delta : Int) = (c.sampleAt now).2.last - c.last := by
  show ((now - c.last).toNat : Int) = max now c.last - c.last
  omega

/-- **Deltas add up** to how far the latest instant has moved. -/
theorem sum_deltas (instants : List Instant) : ∀ c : FrameClock,
    ((((c.samplesAt instants).map (·.delta)).sum : Nat) : Int) = latest c.last instants - c.last := by
  induction instants with
  | nil =>
    intro c
    rw [latest_nil, Int.sub_self]
    rfl
  | cons now rest ih =>
    intro c
    have hrest := ih (c.sampleAt now).2
    have hfirst := delta_sampleAt c now
    have hlast : (c.sampleAt now).2.last = max now c.last := rfl
    rw [hlast] at hrest hfirst
    rw [samplesAt, List.map_cons, List.sum_cons, latest_cons]
    omega

/-- **Deltas count every stretch of time once.**  The delta at an instant is the time by which it is ahead of the origin
and of all instants before it, which is how far it moves the latest of them; the deltas up to there add up to the time
from the origin to the latest instant; and samples are numbered from zero on. -/
theorem deltas_account (origin : Instant) (instants : List Instant) (i : Nat) (hi : i < instants.length) :
    ∃ sample, ((startingAt origin).samplesAt instants)[i]? = some sample ∧
      (sample.delta : Int) = max 0 (instants[i] - latest origin (instants.take i)) ∧
      (sample.delta : Int) = latest origin (instants.take (i + 1)) - latest origin (instants.take i) ∧
      ((((startingAt origin).samplesAt instants).take (i + 1)).map (·.delta)).sum =
        latest origin (instants.take (i + 1)) - origin ∧
      sample.frame = min i maxFrame := by
  have hsample : ((startingAt origin).samplesAt instants)[i]? =
      some (((startingAt origin).after (instants.take i)).sampleAt instants[i]).1 := by
    rw [getElem?_samplesAt, List.getElem?_eq_getElem hi, Option.map_some]
  have hlength : (instants.take i).length = i := List.length_take_of_le (Nat.le_of_lt hi)
  have hmove : latest origin (instants.take (i + 1)) = max instants[i] (latest origin (instants.take i)) := by
    rw [List.take_succ_eq_append_getElem hi, latest_concat]
  rw [after_startingAt, hlength] at hsample
  refine ⟨_, hsample, ?_, ?_, ?_, rfl⟩
  · exact Instant.cast_since _ _
  · rw [hmove]
    exact delta_sampleAt _ _
  · rw [take_samplesAt]
    exact sum_deltas _ _

/-- Instants of which the second is stale and the third repeats the first. -/
theorem deltas_account_stale : 3 < [30, 10, 30, 50].length ∧
    ∃ sample, ((startingAt 20).samplesAt [30, 10, 30, 50])[3]? = some sample ∧ sample.delta = 20 ∧ sample.frame = 3 ∧
      ((((startingAt 20).samplesAt [30, 10, 30, 50]).take 4).map (·.delta)).sum = 30 := by
  have hi : 3 < [30, 10, 30, 50].length := by decide
  obtain ⟨sample, hsample, hdelta, -, hsum, hframe⟩ := deltas_account 20 [30, 10, 30, 50] 3 hi
  exact ⟨hi, sample, hsample, Int.ofNat_inj.1 hdelta, hframe, Int.ofNat_inj.1 hsum⟩

/-! ## Elapsed times -/

/-- The elapsed time is that of the instant alone. -/
theorem elapsed_samplesAt (instants : List Instant) : ∀ c : FrameClock,
    (c.samplesAt instants).map (·.elapsed) = instants.map (Instant.since · c.origin) := by
  induction instants with
  | nil => exact fun _ => rfl
  | cons now rest ih => exact fun c => congrArg _ (ih (c.sampleAt now).2)

/-- **The elapsed times go back just where the instants do**, unless that is before the origin, and none is negative:
each is how long after the origin its instant is, or zero. -/
theorem elapsed_ascends_iff (origin : Instant) (instants : List Instant) :
    (((startingAt origin).samplesAt instants).map fun s => (s.elapsed : Int)) =
        instants.map (fun now => max 0 (now - origin)) ∧
      ((((startingAt origin).samplesAt instants).map (·.elapsed)).IsChain (· ≤ ·) ↔
        instants.IsChain fun now next => now ≤ next ∨ now ≤ origin) := by
  have helapsed : ((startingAt origin).samplesAt instants).map (·.elapsed) = instants.map (Instant.since · origin) :=
    elapsed_samplesAt instants (startingAt origin)
  constructor
  · have hcast := congrArg (List.map (Nat.cast : Nat → Int)) helapsed
    rw [List.map_map, List.map_map] at hcast
    exact hcast.trans (List.map_congr_left fun now _ => Instant.cast_since now origin)
  · rw [helapsed, List.isChain_map]
    simp only [Instant.since_le_since_iff]

/-- **A stale instant takes the elapsed time back.** -/
theorem elapsed_stale : ¬ (((startingAt 0).samplesAt [20000000, 10000000]).map (·.elapsed)).IsChain (· ≤ ·) := by
  decide

end FrameClock
end LiveShader
