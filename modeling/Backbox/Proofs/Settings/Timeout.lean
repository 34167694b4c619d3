import Backbox.Settings.Connection

/-!
# Bounds on connect attempts

A bound is kept in whole milliseconds, and zero milliseconds stand for no bound. So a bound comes
back shorter by less than a millisecond, or as the largest one that settings hold. One that is
shorter than a millisecond, but longer than nothing, does not come back: the attempt is not bounded
at all.
-/

namespace Backbox

namespace Duration

/-- The whole milliseconds of a length of time, before they are put into 64 bits. -/
theorem toNat_milliseconds (d : Duration) :
    d.milliseconds.toNat = min (d.nanoseconds / 1000000) maxMilliseconds := by
  have fits : min (d.nanoseconds / 1000000) maxMilliseconds < 2 ^ 64 :=
    Nat.lt_of_le_of_lt (Nat.min_le_right _ _) (by decide)
  rw [milliseconds, UInt64.toNat_ofNat', Nat.mod_eq_of_lt fits]

/-- A length of time has no whole milliseconds exactly if it is shorter than one. -/
theorem milliseconds_eq_zero_iff (d : Duration) :
    d.milliseconds = 0 ↔ d.nanoseconds < 1000000 := by
  rw [← UInt64.toNat_inj, toNat_milliseconds, UInt64.toNat_zero]
  unfold maxMilliseconds
  omega

end Duration

namespace ConnectionSettings

/-- The bound that is set on attempts is lifted exactly if it is shorter than a millisecond.
Otherwise it comes back as a bound that is no longer, and shorter by less than a millisecond, or
that is the longest one there is. -/
theorem connectTimeout_withConnectTimeout (s : ConnectionSettings) (t : Duration) :
    ((s.withConnectTimeout t).connectTimeout = none ↔ t.nanoseconds < 1000000) ∧
    ∀ d, (s.withConnectTimeout t).connectTimeout = some d →
      0 < d.nanoseconds ∧ d.nanoseconds ≤ t.nanoseconds ∧
      (t.nanoseconds ≤ Duration.maxMilliseconds * 1000000 →
        t.nanoseconds - d.nanoseconds < 1000000) ∧
      (Duration.maxMilliseconds * 1000000 < t.nanoseconds →
        d = .ofMilliseconds Duration.maxMilliseconds) := by
  have bound : (s.withConnectTimeout t).connectTimeout =
      if t.milliseconds = 0 then none else some (.ofMilliseconds t.milliseconds.toNat) := rfl
  rw [bound]
  by_cases short : t.nanoseconds < 1000000
  · rw [if_pos (t.milliseconds_eq_zero_iff.mpr short)]
    exact ⟨iff_of_true rfl short, fun d held => by cases held⟩
  · rw [if_neg (mt t.milliseconds_eq_zero_iff.mp short), t.toNat_milliseconds]
    refine ⟨iff_of_false (by simp) short, ?_⟩
    rintro _ ⟨⟩
    simp only [Duration.ofMilliseconds, Duration.mk.injEq]
    unfold Duration.maxMilliseconds
    omega

/-- A bound that is a millisecond longer than the longest one is cut to it. -/
theorem connectTimeout_withConnectTimeout_longest :
    let t := Duration.ofParts 18446744073709551 616000000
    let longest := Duration.ofMilliseconds 18446744073709551615
    let s := (ConnectionSettings.ofHost "host").withConnectTimeout t
    Duration.maxMilliseconds * 1000000 < t.nanoseconds ∧ s.connectTimeout = some longest ∧
      longest.nanoseconds ≤ t.nanoseconds := by
  intro t longest s
  have beyond : Duration.maxMilliseconds * 1000000 < t.nanoseconds := by decide
  have held : s.connectTimeout = some longest := by decide
  obtain ⟨-, bounded⟩ := connectTimeout_withConnectTimeout (.ofHost "host") t
  exact ⟨beyond, held, (bounded longest held).2.1⟩

/-- A bound that is longer than nothing may be lifted. -/
theorem connectTimeout_lifted : ¬ ∀ (s : ConnectionSettings) (t : Duration),
    (s.withConnectTimeout t).connectTimeout = none ↔ t.nanoseconds = 0 := by
  intro zero
  exact absurd ((zero (.ofHost "host") (.ofParts 0 1)).mp (by decide)) (by decide)

end ConnectionSettings

end Backbox
