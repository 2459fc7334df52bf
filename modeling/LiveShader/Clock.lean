import LiveShader.Scalar
/-!
# Clock — the time that shaders see

Instants are nanoseconds on a clock that never goes back; spans between them are natural numbers.  A sample tells
the time since the clock was reset and since the last sample, and never counts a stretch twice.
-/
namespace LiveShader

inductive SyncPolicy where
  /-- Wait for one vertical blank for every swap. -/
  | vsync
  /-- Swap as soon as the frame is done. -/
  | immediate
deriving DecidableEq, Repr

def SyncPolicy.toggled : SyncPolicy → SyncPolicy
  | vsync => immediate
  | immediate => vsync

/-- A point in time, in nanoseconds. -/
abbrev Instant := Int

namespace Instant

/-- The nanoseconds from one instant to a later one; none back to an earlier one. -/
def since (later earlier : Instant) : Nat := (later - earlier).toNat

end Instant

def nanosPerSecond : Nat := 1000000000

/-- A span in seconds: the whole seconds and the fraction are rounded each on its own, then added. -/
def secondsOfNanos (n : Nat) : Float32 :=
  Single.ofNat (n / nanosPerSecond) + Single.ofNat (n % nanosPerSecond) / Single.ofNat nanosPerSecond

/-- What the clock tells at one frame: spans in nanoseconds and the number of the frame. -/
structure TimeSample where
  elapsed : Nat
  delta : Nat
  frame : Nat
deriving DecidableEq, Repr

namespace TimeSample

def seconds (s : TimeSample) : Float32 := secondsOfNanos s.elapsed

def deltaSeconds (s : TimeSample) : Float32 := secondsOfNanos s.delta

def deltaMillis (s : TimeSample) : Float32 := s.deltaSeconds * 1000.0

end TimeSample

/-- The instant of the last reset, the latest instant seen since, and the number of samples since. -/
structure FrameClock where
  origin : Instant
  last : Instant
  frame : Nat
deriving DecidableEq, Repr

namespace FrameClock

/-- The greatest frame number; counting stops there. -/
def maxFrame : Nat := 18446744073709551615

def startingAt (now : Instant) : FrameClock := ⟨now, now, 0⟩

/-- Samples the clock at an instant, and remembers the instant unless it is a stale one. -/
def sampleAt (c : FrameClock) (now : Instant) : TimeSample × FrameClock :=
  (⟨Instant.since now c.origin, Instant.since now c.last, c.frame⟩,
    { c with last := max now c.last, frame := min (c.frame + 1) maxFrame })

end FrameClock
end LiveShader
