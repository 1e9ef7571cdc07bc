/-!
# Instants and spans

When something happens is an instant, and how instants are told is left open here.  A `Timeline` is
any way to do so: it has its own instants and its own signed lengths of time, takes the length from
one instant to another, and makes a `Span` of a length that is not negative.  All that is asked of
it is that lengths are exact, to the nanosecond, and that a span is missing for negative lengths
only.

`Timeline.until?_eq_some_iff` and `Timeline.until?_eq_none_iff` say what follows for the time from
one instant to another.  `Instant.timeline` is one such timeline, on which instants are counted in
seconds and nanoseconds from an epoch.
-/

set_option autoImplicit false

namespace GuardedMachine

/-- The nanoseconds in a second. -/
abbrev nanosPerSecond : Nat := 1000000000

/-! ## Spans -/

/-- A length of time that is not negative. -/
@[ext] structure Span where
  seconds : Nat
  nanos : Nat
  nanos_lt : nanos < nanosPerSecond
deriving DecidableEq

namespace Span

/-- The length in nanoseconds. -/
def toNanos (d : Span) : Nat := d.seconds * nanosPerSecond + d.nanos

/-- The span of so many nanoseconds. -/
def ofNanos (n : Nat) : Span where
  seconds := n / nanosPerSecond
  nanos := n % nanosPerSecond
  nanos_lt := Nat.mod_lt _ (by decide)

theorem toNanos_inj {d e : Span} : d.toNanos = e.toNanos ↔ d = e := by
  refine ⟨fun h => ?_, fun h => h ▸ rfl⟩
  have hd := d.nanos_lt
  have he := e.nanos_lt
  simp only [toNanos, nanosPerSecond] at h hd he
  rw [Span.ext_iff]
  omega

theorem toNanos_ofNanos (n : Nat) : (ofNanos n).toNanos = n := Nat.div_add_mod' n nanosPerSecond

end Span

/-! ## Timelines -/

/-- A way to tell the time, with instants in `T` and signed lengths of time in `D`. -/
structure Timeline (T D : Type) where
  /-- Where an instant lies, in nanoseconds from an epoch and negative before it. -/
  position : T → Int
  /-- How many nanoseconds a length has. -/
  length : D → Int
  /-- The length from one instant to another, which is negative if the other one is earlier. -/
  between : T → T → D
  /-- The length as a span, if it is one. -/
  toSpan? : D → Option Span
  /-- Lengths between instants are exact. -/
  length_between : ∀ a b, length (between a b) = position b - position a
  /-- Only what is negative is no span. -/
  toSpan?_eq_none_iff : ∀ d, toSpan? d = none ↔ length d < 0
  /-- A span is as long as the length that it is made of. -/
  toNanos_of_toSpan? : ∀ d s, toSpan? d = some s → (s.toNanos : Int) = length d

namespace Timeline

variable {T D : Type} (time : Timeline T D) {a b : T} {d : Span}

/-- The time from `a` to `b`, if `b` is not the earlier of the two. -/
def until? (a b : T) : Option Span := time.toSpan? (time.between a b)

theorem until?_eq_none_iff : time.until? a b = none ↔ time.position b < time.position a := by
  rw [until?, time.toSpan?_eq_none_iff, time.length_between]
  omega

theorem exists_until? (h : time.position a ≤ time.position b) : ∃ d, time.until? a b = some d :=
  Option.ne_none_iff_exists'.1 fun hnone => Int.not_lt.2 h (time.until?_eq_none_iff.1 hnone)

theorem until?_eq_some_iff :
    time.until? a b = some d ↔ time.position a + d.toNanos = time.position b := by
  have hexact (e : Span) (he : time.until? a b = some e) :
      time.position a + e.toNanos = time.position b := by
    rw [time.toNanos_of_toSpan? _ e he, time.length_between]
    omega
  refine ⟨hexact d, fun h => ?_⟩
  obtain ⟨e, he⟩ := time.exists_until? (a := a) (b := b) (by omega)
  have hlength : e.toNanos = d.toNanos := by
    have := hexact e he
    omega
  rw [he, Span.toNanos_inj.1 hlength]

end Timeline

/-! ## Instants in seconds and nanoseconds -/

/-- A point in time that is counted from an epoch. -/
structure Instant where
  /-- Whole seconds since the epoch, negative before it. -/
  seconds : Int
  /-- Nanoseconds after that second. -/
  nanos : Nat
  nanos_lt : nanos < nanosPerSecond
deriving DecidableEq

namespace Instant

/-- The distance from the epoch in nanoseconds, negative before it. -/
def toNanos (a : Instant) : Int := a.seconds * nanosPerSecond + a.nanos

/-- Lengths between such instants are whole numbers of nanoseconds. -/
def timeline : Timeline Instant Int where
  position := toNanos
  length d := d
  between a b := b.toNanos - a.toNanos
  toSpan? d := if d < 0 then none else some (Span.ofNanos d.toNat)
  length_between _ _ := rfl
  toSpan?_eq_none_iff d := by simp
  toNanos_of_toSpan? d s h := by
    split at h
    · cases h
    · rename_i hd
      obtain rfl := Option.some.inj h
      rw [Span.toNanos_ofNanos, Int.toNat_of_nonneg (Int.not_lt.1 hd)]

end Instant

end GuardedMachine
