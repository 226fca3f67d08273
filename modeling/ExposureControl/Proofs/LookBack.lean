import ExposureControl.Proofs.Course
import ExposureControl.Proofs.Faults
import ExposureControl.Time.Text

/-!
# Looking back from the years of service

What is old is dropped up to a time that lies one retention period before the present.  That time
can be represented from every present of the years 1970 to 9999 exactly for retention periods of at
most some 264 thousand years, or, where they are negative, some 252 thousand.
-/

namespace ExposureControl

namespace Instant

def firstOfService : Instant := ⟨0⟩

def lastOfService : Instant := ⟨253402300799999999⟩

example : (firstOfService.text, lastOfService.text) =
    ("1970-01-01T00:00:00Z", "9999-12-31T23:59:59.999999Z") := by
  decide +kernel

/-- Whether a time lies in the years from 1970 to 9999. -/
def InService (t : Instant) : Prop := firstOfService ≤ t ∧ t ≤ lastOfService

instance (t : Instant) : Decidable t.InService :=
  inferInstanceAs (Decidable (firstOfService ≤ t ∧ t ≤ lastOfService))

theorem inService_iff (t : Instant) :
    t.InService ↔ 0 ≤ t.micros ∧ t.micros ≤ 253402300799999999 := Iff.rfl

theorem InService.representable {t : Instant} (hservice : t.InService) : first ≤ t ∧ t ≤ last := by
  rw [inService_iff] at hservice
  simp only [le_iff, first, last]
  omega

end Instant

namespace Span

/-- Whether a period can be looked back from all of the years of service. -/
def Reaches (period : Except Fault Span) : Prop :=
  ∀ now : Instant, now.InService → ∃ cutoff, period >>= now.before = .ok cutoff

/-- A number of milliseconds can be looked back exactly if neither end of the years of service comes
to lie outside the representable years. -/
theorem reaches_checked_iff (millis : Int) :
    Reaches (checked millis) ↔ -7956864576000000 ≤ millis ∧ millis ≤ 8334601228800000 := by
  have hbefore : ∀ now : Instant, (∃ cutoff, checked millis >>= now.before = .ok cutoff) ↔
      millis.natAbs ≤ maxMillis.natAbs ∧ Instant.first.micros ≤ now.micros - millis * 1000 ∧
        now.micros - millis * 1000 ≤ Instant.last.micros := by
    intro now
    simp only [Fault.bind_eq_ok_iff, checked, Instant.before, Instant.checked_eq_ok_iff]
    split
    · next hlength =>
      constructor
      · rintro ⟨cutoff, span, hspan, rfl, hfirst, hlast⟩
        obtain rfl := Except.ok.inj hspan
        exact ⟨hlength, hfirst, hlast⟩
      · rintro ⟨-, hfirst, hlast⟩
        exact ⟨_, _, rfl, rfl, hfirst, hlast⟩
    · next hlength =>
      constructor
      · rintro ⟨_, _, hspan, -⟩
        cases hspan
      · exact fun h => absurd h.1 hlength
  simp only [Reaches, hbefore, Instant.inService_iff, maxMillis, Instant.first, Instant.last]
  constructor
  · intro hreaches
    have hfirst := hreaches Instant.firstOfService (by decide)
    have hlast := hreaches Instant.lastOfService (by decide)
    simp only [Instant.firstOfService, Instant.lastOfService] at hfirst hlast
    omega
  · rintro hmillis now hservice
    omega

def DaysInReach (n : Int) : Prop := -92093340 ≤ n ∧ n ≤ 96465292

def MinutesInReach (n : Int) : Prop := -132614409600 ≤ n ∧ n ≤ 138910020480

instance (n : Int) : Decidable (DaysInReach n) :=
  inferInstanceAs (Decidable (-92093340 ≤ n ∧ n ≤ 96465292))

instance (n : Int) : Decidable (MinutesInReach n) :=
  inferInstanceAs (Decidable (-132614409600 ≤ n ∧ n ≤ 138910020480))

theorem reaches_days_iff (n : Int) : Reaches (days n) ↔ DaysInReach n := by
  rw [days, reaches_checked_iff, DaysInReach]
  omega

theorem reaches_minutes_iff (n : Int) : Reaches (minutes n) ↔ MinutesInReach n := by
  rw [minutes, reaches_checked_iff, MinutesInReach]
  omega

end Span

/-! ## The periods of a governor -/

namespace Settings

/-- How far back the components look, under these settings. -/
def retentions (settings : Settings) : List (Except Fault Span) :=
  [Span.days settings.costs.retentionDays, Span.minutes settings.costs.pendingMinutes,
    Span.days settings.drift.retentionDays, Span.days settings.shadow.closedRetentionDays,
    Span.days settings.selection.pullRetentionDays]

end Settings

namespace Governor

variable {governor : Governor}

/-- A pass of housekeeping is carried out only where every period can be looked back. -/
theorem lookBack_of_pruneExpired {now : Instant} {done : Governor × Removals}
    (hprune : governor.pruneExpired now = .ok done) :
    ∀ retention ∈ governor.retentions, ∃ cutoff, retention >>= now.before = .ok cutoff := by
  simp only [pruneExpired, Costs.Desk.pruneExpired, Costs.History.pruneExpired,
    Drift.Monitor.pruneExpired, Shadow.Engine.pruneExpired, Fault.bind_eq_ok_iff] at hprune
  obtain ⟨_, ⟨_, ⟨costs, hcosts, -⟩, _, hminutes, pending, hpending, -⟩, _,
    ⟨_, hdrift, drift, hdriftCutoff, -⟩, _, ⟨_, hshadow, shadow, hshadowCutoff, -⟩, _, hpulls,
    pulls, hpullsCutoff, -⟩ := hprune
  simp only [retentions, List.forall_mem_cons, List.not_mem_nil, false_imp_iff, implies_true,
    and_true, Fault.bind_eq_ok_iff]
  exact ⟨⟨costs, _, rfl, hcosts⟩, ⟨pending, _, hminutes, hpending⟩,
    ⟨drift, _, hdrift, hdriftCutoff⟩, ⟨shadow, _, hshadow, hshadowCutoff⟩,
    ⟨pulls, _, hpulls, hpullsCutoff⟩⟩

end Governor

end ExposureControl
